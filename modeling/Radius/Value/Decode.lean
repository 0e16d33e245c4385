import Radius.Value
import Radius.Record
import Radius.Dictionary

/-!
Reading a value of a declared type. The octets of a value do not show its type, so a reader is told
it. The records of a tree value get their types from the dictionary, by the path of the tree
followed by the record's type octet; a record that the dictionary does not know, or whose value does
not fit its definition, stays opaque.
-/

namespace Radius

namespace Value

def untypedOctets (octets : Octets) : Value := .plain (.string octets)

def decode? (dictionary : Dictionary) (type : DataType) (path : TypePath) (octets : Octets) :
    Option Value :=
  match type with
  | .extended => (Container.decodeExtended? octets).map .container
  | .longExtended => (Container.decodeLongExtended? octets).map .container
  | .vsa => (Container.decodeVsa? octets).map .container
  | .evs => (Container.decodeEvs? octets).map .container
  | .concat => (Concat.ofFragments [octets]).toOption.map .concat
  | .tlv =>
      match _split : Record.readAll 0 octets with
      | .error _ => none
      | .ok records =>
          some (.tlv (records.attach.map fun ⟨record, _⟩ =>
            let child := path.child record.type.toUInt32
            let known := (dictionary.tlv? child).bind fun definition =>
              decode? dictionary definition.dataType child record.value
            (record.type, known.getD (untypedOctets record.value))))
  | unnested => (PlainValue.decode? unnested octets).map .plain
termination_by octets.length
decreasing_by exact Record.length_value_lt_of_readAll _split ‹_›

def decodeRecord (dictionary : Dictionary) (path : TypePath) (record : Record) : UInt8 × Value :=
  let child := path.child record.type.toUInt32
  let known := (dictionary.tlv? child).bind fun definition =>
    decode? dictionary definition.dataType child record.value
  (record.type, known.getD (untypedOctets record.value))

theorem decode?_tlv (dictionary : Dictionary) (path : TypePath) (octets : Octets) :
    decode? dictionary .tlv path octets =
      (Record.readAll 0 octets).toOption.map fun records =>
        .tlv (records.map (decodeRecord dictionary path)) := by
  rw [decode?]
  split
  · rename_i failed
    rw [failed]
    rfl
  · rename_i records split
    rw [split]
    simp only [Except.toOption, Option.map_some, Option.some.injEq, tlv.injEq]
    change records.attach.map (fun record => decodeRecord dictionary path record.val) = _
    exact List.attach_map_val

theorem payload_lt_of_decode? {dictionary : Dictionary} {type : DataType} {path : TypePath}
    {octets : Octets} {inner : Container}
    (read : decode? dictionary type path octets = some (.container inner)) :
    inner.payload.length < octets.length := by
  unfold decode? at read
  split at read
  · obtain ⟨value, found, same⟩ := Option.map_eq_some_iff.mp read
    cases same
    exact Container.payload_lt_of_decodeExtended? found
  · obtain ⟨value, found, same⟩ := Option.map_eq_some_iff.mp read
    cases same
    exact Container.payload_lt_of_decodeLongExtended? found
  · obtain ⟨value, found, same⟩ := Option.map_eq_some_iff.mp read
    cases same
    exact Container.payload_lt_of_decodeVsa? found
  · obtain ⟨value, found, same⟩ := Option.map_eq_some_iff.mp read
    cases same
    exact Container.payload_lt_of_decodeEvs? found
  · obtain ⟨_, _, same⟩ := Option.map_eq_some_iff.mp read
    contradiction
  · split at read <;> cases read
  · obtain ⟨_, _, same⟩ := Option.map_eq_some_iff.mp read
    contradiction

end Value

end Radius
