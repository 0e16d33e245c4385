import Radius.Proofs.Leftovers

/-!
The verdict on a packet. The rules of both modes look at the code and at the paths of the
attributes, so packets that agree in these get the same verdict, whatever the order, the number and
the values of their attributes. The strict mode has two refusals of its own, and makes them only
where those rules have none.
-/

namespace Radius

def Attribute.LeftRaw (dictionary : Dictionary) (entry : Attribute) : Prop :=
  ∃ record definition, entry = .raw record ∧
    dictionary.attribute? (.topLevel record.type) = some definition

namespace Packet

def Shows (packet : Packet) (path : TypePath) : Prop :=
  ∃ entry ∈ packet.attributes, entry.path = path

structure Akin (packet other : Packet) : Prop where
  code : packet.code = other.code
  paths : ∀ path, packet.Shows path ↔ other.Shows path

/-- An access request has a user name, one of the two kinds of password, and the address or the name
of a server; an accounting request has a status; any other packet may have what it likes. -/
def Complete (packet : Packet) : Prop :=
  (packet.code ≠ 1 ∧ packet.code ≠ 4) ∨
    (packet.code = 1 ∧ packet.Shows (.topLevel 1) ∧
      Xor (packet.Shows (.topLevel 2)) (packet.Shows (.topLevel 3)) ∧
      (packet.Shows (.topLevel 4) ∨ packet.Shows (.topLevel 32))) ∨
    (packet.code = 4 ∧ packet.Shows (.topLevel 40))

/-- Why the strict mode refuses a packet: for the rules of both modes, else for its code, else for
the first record that should have been decoded. -/
inductive Refused (packet : Packet) (dictionary : Dictionary) : ValidationError → Prop
  | content {cause : ValidationError}
      (refused : packet.validate dictionary .lenient = .error cause) :
      Refused packet dictionary cause
  | unknownCode (passed : packet.validate dictionary .lenient = .ok ())
      (unknown : dictionary.packet? packet.code = none) :
      Refused packet dictionary (.unknownCode packet.code)
  | undecoded {definition : PacketDefinition} {front behind : List Attribute} {record : Record}
      (passed : packet.validate dictionary .lenient = .ok ())
      (known : dictionary.packet? packet.code = some definition)
      (split : packet.attributes = front ++ .raw record :: behind)
      (first : ∀ entry ∈ front, ¬entry.LeftRaw dictionary)
      (left : (Attribute.raw record).LeftRaw dictionary) :
      Refused packet dictionary (.undecoded (.topLevel record.type))

variable {packet other : Packet} {dictionary : Dictionary}

section Content

variable {code : PacketCode} {first second : StandardAttribute}

theorem has_eq_true_iff : packet.has first = true ↔ packet.Shows first.path := by
  simp only [has, contains, find?, List.find?_isSome, decide_eq_true_eq]
  exact Iff.rfl

theorem kind?_eq_some_iff : packet.kind? = some code ↔ packet.code = code.octet := by
  constructor
  · intro found
    exact (PacketCode.octet_of_ofOctet? found).symm
  · intro same
    rw [kind?, same]
    exact PacketCode.ofOctet?_octet code

theorem require_eq_ok_iff : packet.require code first = .ok () ↔ packet.Shows first.path := by
  rw [← has_eq_true_iff, require]
  split <;> simp_all

theorem requireEither_eq_ok_iff : packet.requireEither code first second = .ok () ↔
    packet.Shows first.path ∨ packet.Shows second.path := by
  rw [← has_eq_true_iff, ← has_eq_true_iff, requireEither]
  split <;> simp_all

theorem refuseBoth_eq_ok_iff : packet.refuseBoth code first second = .ok () ↔
    ¬(packet.Shows first.path ∧ packet.Shows second.path) := by
  rw [← has_eq_true_iff, ← has_eq_true_iff, refuseBoth]
  split <;> simp_all

theorem passes_after_iff {check next : Except ValidationError Unit} :
    (do check; next) = .ok () ↔ check = .ok () ∧ next = .ok () := by
  rw [Result.bind_eq_ok_iff]
  constructor
  · rintro ⟨_, first, second⟩
    exact ⟨first, second⟩
  · rintro ⟨first, second⟩
    exact ⟨(), first, second⟩

theorem complete_iff_of_accessRequest (code : packet.code = 1) : packet.Complete ↔
    packet.Shows (.topLevel 1) ∧ Xor (packet.Shows (.topLevel 2)) (packet.Shows (.topLevel 3)) ∧
      (packet.Shows (.topLevel 4) ∨ packet.Shows (.topLevel 32)) := by
  constructor
  · rintro (⟨different, -⟩ | ⟨-, complete⟩ | ⟨different, -⟩)
    · exact absurd code different
    · exact complete
    · rw [code] at different
      contradiction
  · intro complete
    exact .inr (.inl ⟨code, complete⟩)

theorem complete_iff_of_accountingRequest (code : packet.code = 4) : packet.Complete ↔
    packet.Shows (.topLevel 40) := by
  constructor
  · rintro (⟨-, different⟩ | ⟨different, -⟩ | ⟨-, complete⟩)
    · exact absurd code different
    · rw [code] at different
      contradiction
    · exact complete
  · intro complete
    exact .inr (.inr ⟨code, complete⟩)

theorem validateContent_eq_ok_iff : packet.validateContent = .ok () ↔ packet.Complete := by
  unfold validateContent
  split
  · rename_i access
    rw [complete_iff_of_accessRequest (kind?_eq_some_iff.mp access), xor_iff_or_and_not_and,
      passes_after_iff, passes_after_iff, passes_after_iff, require_eq_ok_iff,
      requireEither_eq_ok_iff, refuseBoth_eq_ok_iff, requireEither_eq_ok_iff, and_assoc]
    exact Iff.rfl
  · rename_i accounting
    rw [complete_iff_of_accountingRequest (kind?_eq_some_iff.mp accounting), require_eq_ok_iff]
    exact Iff.rfl
  · rename_i access accounting
    refine iff_of_true rfl (.inl ⟨?_, ?_⟩)
    · intro code
      exact access (kind?_eq_some_iff.mpr code)
    · intro code
      exact accounting (kind?_eq_some_iff.mpr code)

theorem Akin.validateContent_eq (akin : packet.Akin other) :
    packet.validateContent = other.validateContent := by
  have alike (entry : StandardAttribute) : packet.has entry = other.has entry :=
    Bool.eq_iff_iff.mpr (by rw [has_eq_true_iff, has_eq_true_iff, akin.paths])
  have kind : packet.kind? = other.kind? := congrArg PacketCode.ofOctet? akin.code
  simp only [validateContent, kind, require, requireEither, refuseBoth, alike]

end Content

section Modes

theorem validate_lenient_eq : packet.validate dictionary .lenient = packet.validateContent := by
  unfold validate
  rw [if_neg (by decide)]
  cases packet.validateContent <;> rfl

theorem find?_isUndecoded_eq_some_iff {entry : Attribute} :
    packet.attributes.find? (isUndecoded dictionary) = some entry ↔
      entry.LeftRaw dictionary ∧ ∃ front behind, packet.attributes = front ++ entry :: behind ∧
        ∀ earlier ∈ front, ¬earlier.LeftRaw dictionary := by
  have raw (entry : Attribute) : isUndecoded dictionary entry = true ↔ entry.LeftRaw dictionary :=
    Attribute.isUndecoded_iff
  simp only [List.find?_eq_some_iff_append, raw, Bool.not_eq_true', ← Bool.not_eq_true]

theorem Refused.validate {cause : ValidationError} (refused : packet.Refused dictionary cause) :
    packet.validate dictionary .strict = .error cause := by
  unfold Packet.validate
  rw [Result.bind_eq_error_iff]
  cases refused with
  | content refused =>
      rw [validate_lenient_eq] at refused
      exact .inl refused
  | unknownCode passed unknown =>
      rw [validate_lenient_eq] at passed
      refine .inr ⟨(), passed, ?_⟩
      rw [if_pos rfl, validateDecoded, unknown]
      rfl
  | undecoded passed known split first left =>
      rw [validate_lenient_eq] at passed
      refine .inr ⟨(), passed, ?_⟩
      rw [if_pos rfl, validateDecoded, known,
        find?_isUndecoded_eq_some_iff.mpr ⟨left, _, _, split, first⟩]
      rfl

theorem passed_or_refused (packet : Packet) (dictionary : Dictionary) :
    packet.validate dictionary .strict = .ok () ∨ ∃ cause, packet.Refused dictionary cause := by
  cases lenient : packet.validate dictionary .lenient with
  | error cause => exact .inr ⟨cause, .content lenient⟩
  | ok _ =>
      cases known : dictionary.packet? packet.code with
      | none => exact .inr ⟨_, .unknownCode lenient known⟩
      | some definition =>
          cases found : packet.attributes.find? (isUndecoded dictionary) with
          | some entry =>
              obtain ⟨⟨record, definition, rfl, defined⟩, front, behind, split, first⟩ :=
                find?_isUndecoded_eq_some_iff.mp found
              exact .inr ⟨_,
                .undecoded lenient known split first ⟨record, definition, rfl, defined⟩⟩
          | none =>
              rw [validate_lenient_eq] at lenient
              refine .inl (validate_strict_eq_ok_iff.mpr ⟨lenient, by rw [known]; rfl, ?_⟩)
              intro entry member
              exact Bool.eq_false_iff.mpr (List.find?_eq_none.mp found entry member)

theorem validate_strict_eq_error_iff {cause : ValidationError} :
    packet.validate dictionary .strict = .error cause ↔ packet.Refused dictionary cause := by
  constructor
  · intro failed
    rcases passed_or_refused packet dictionary with passed | ⟨other, refused⟩
    · rw [passed] at failed
      contradiction
    · cases failed.symm.trans refused.validate
      exact refused
  · exact Refused.validate

theorem validate_strict_passes_iff : packet.validate dictionary .strict = .ok () ↔
    packet.validate dictionary .lenient = .ok () ∧
      (∃ definition, dictionary.packet? packet.code = some definition) ∧
      ∀ entry ∈ packet.attributes, ¬entry.LeftRaw dictionary := by
  simp only [validate_strict_eq_ok_iff, validate_lenient_eq, Option.isSome_iff_exists,
    Attribute.LeftRaw, ← Attribute.isUndecoded_iff, Bool.not_eq_true]

theorem akin_of_perm (code : packet.code = other.code)
    (order : packet.attributes.Perm other.attributes) : packet.Akin other where
  code := code
  paths _ := exists_congr fun _ => and_congr_left' order.mem_iff

end Modes

/-- What validation says of a packet. In the lenient mode the verdict, the error included, depends
on the code and the paths that are present, and it is good if the packet has what its code asks for;
the dictionary plays no part. The strict mode adds its two refusals to that, and what it accepts the
lenient mode accepts, in any order of the attributes. -/
theorem validate_verdict (packet : Packet) (dictionary : Dictionary) :
    (∀ (other : Packet) (stranger : Dictionary), packet.Akin other →
      packet.validate dictionary .lenient = other.validate stranger .lenient) ∧
    (packet.validate dictionary .lenient = .ok () ↔ packet.Complete) ∧
    (packet.validate dictionary .strict = .ok () ↔
      packet.validate dictionary .lenient = .ok () ∧
        (∃ definition, dictionary.packet? packet.code = some definition) ∧
        ∀ entry ∈ packet.attributes, ¬entry.LeftRaw dictionary) ∧
    (∀ cause, packet.validate dictionary .strict = .error cause ↔
      packet.Refused dictionary cause) ∧
    (packet.validate dictionary .strict = .ok () →
      packet.validate dictionary .lenient = .ok ()) ∧
    ∀ other : Packet, packet.code = other.code → packet.attributes.Perm other.attributes →
      (packet.validate dictionary .strict = .ok () ↔
        other.validate dictionary .strict = .ok ()) := by
  have lenient (other : Packet) (stranger : Dictionary) (akin : packet.Akin other) :
      packet.validate dictionary .lenient = other.validate stranger .lenient := by
    rw [validate_lenient_eq, validate_lenient_eq, akin.validateContent_eq]
  refine ⟨lenient, ?_, validate_strict_passes_iff, fun cause => validate_strict_eq_error_iff,
    ?_, ?_⟩
  · rw [validate_lenient_eq]
    exact validateContent_eq_ok_iff
  · intro passed
    exact (validate_strict_passes_iff.mp passed).1
  · intro other code order
    rw [validate_strict_passes_iff, validate_strict_passes_iff,
      lenient other dictionary (akin_of_perm code order), code]
    simp only [order.mem_iff]

def readRequest : Packet :=
  ⟨1, [.standard 1 (.plain (.text "a")), .standard 3 (.plain (.string [7])),
    .standard 32 (.plain (.text "n"))], none⟩

def unread (type octet : UInt8) : Attribute := .raw ⟨type, [octet], Nat.le_add_left 1 252⟩

def unreadRequest : Packet :=
  ⟨1, [unread 32 110, unread 3 7, unread 1 97, unread 1 98], none⟩

theorem validate_verdict_unreadRequest :
    readRequest.Akin unreadRequest ∧
      readRequest.validate DefinitionTable.standard.toDictionary .lenient =
        unreadRequest.validate DefinitionTable.standard.toDictionary .lenient ∧
      readRequest.validate DefinitionTable.standard.toDictionary .strict = .ok () ∧
      unreadRequest.validate DefinitionTable.standard.toDictionary .strict =
        .error (.undecoded (.topLevel 32)) := by
  have akin : readRequest.Akin unreadRequest := by
    refine ⟨rfl, fun path => ?_⟩
    simp only [Shows, readRequest, unreadRequest, List.exists_mem_cons_iff, List.not_mem_nil]
    simp only [unread, Attribute.path]
    tauto
  have verdict := validate_verdict readRequest DefinitionTable.standard.toDictionary
  exact ⟨akin, verdict.1 unreadRequest _ akin, by decide +kernel, by decide +kernel⟩

/-- The attribute of a vendor with the number of the user name is no user name. -/
example : (Packet.mk 1 [.vendorSpecific (.topLevel 26) 9 1 (.plain (.text "a")),
      unread 3 7, unread 32 110] none).validateContent =
    .error (.missing .accessRequest .userName) := by decide +kernel

end Packet

end Radius
