import Radius.Proofs.Arrival

/-!
The form in which one long extended value is sent. Pieces that were received in this form are sent
again with the same boundaries and the same octets; only the mark on the last one is decided anew.
-/

namespace Radius

namespace Octets

variable {size : Nat} {positive : 0 < size}

theorem chunks_of_length_le {octets : Octets} (some : octets ≠ []) (short : octets.length ≤ size) :
    chunks size positive octets = [octets] := by
  cases octets with
  | nil => contradiction
  | cons first rest =>
      rw [chunks, List.take_of_length_le short, List.drop_of_length_le short, chunks]

theorem chunks_append {front back : Octets} (full : front.length = size) :
    chunks size positive (front ++ back) = front :: chunks size positive back := by
  cases front with
  | nil =>
      rw [List.length_nil] at full
      omega
  | cons first rest =>
      rw [List.cons_append, chunks, ← List.cons_append, List.take_left' full, List.drop_left' full]

end Octets

def Container.reservedFlags : UInt8 := 0x3F

theorem Container.flags_of_unreserved (octet : UInt8) : octet &&& reservedFlags = 0 →
    flags (octet &&& moreFlag != 0) (octet &&& truncatedFlag != 0) = octet := by
  revert octet
  apply forall_octet
  decide +kernel

theorem Container.flags_inj {more left right : Bool} :
    flags more left = flags more right ↔ left = right := by
  cases more <;> cases left <;> cases right <;> decide

def Record.SameButMark (received sent : Record) : Prop :=
  sent = received ∨
    sent.type = received.type ∧ sent.value = received.value.modify 1 (· &&& ~~~Container.truncatedFlag)

namespace Lifting

/-- The form in which one long extended value is sent: all records but the last are full, the last
one is not empty unless it is alone, no reserved bit is set, and only the last can be marked. -/
structure AsSent (group : List Record) : Prop where
  full : ∀ record ∈ group.dropLast, record.value.length = maxRecordValue
  filled : ∀ record ∈ group.tail.getLast?, 2 < record.value.length
  unreserved : ∀ record ∈ group, ∀ flags ∈ record.value[1]?, flags &&& Container.reservedFlags = 0
  unmarked : ∀ record ∈ group.dropLast, ∀ flags ∈ record.value[1]?,
    flags &&& Container.truncatedFlag = 0

def AllAsSent (dictionary : Dictionary) (records : List Record) : Prop :=
  ∀ type extendedType definition group pieces rest,
    dictionary.attribute? (.topLevel type) = some definition → definition.carrier = .fragmented →
      group <:+: records → ChainOf type extendedType group pieces true rest → AsSent group

section Pieces

variable {type extendedType : UInt8} {group rest : List Record} {pieces : List Piece}

theorem AsSent.tail {record second : Record} {others : List Record}
    (sent : AsSent (record :: second :: others)) : AsSent (second :: others) := by
  refine ⟨?_, ?_, ?_, ?_⟩
  · intro later member
    exact sent.full later (List.mem_cons_of_mem record member)
  · intro last member
    refine sent.filled last ?_
    cases others with
    | nil => contradiction
    | cons third behind => rwa [List.tail_cons, List.getLast?_cons_cons]
  · intro later member
    exact sent.unreserved later (List.mem_cons_of_mem record member)
  · intro later member
    exact sent.unmarked later (List.mem_cons_of_mem record member)

theorem ne_nil_of_closed (chain : ChainOf type extendedType group pieces true rest) :
    group ≠ [] ∧ pieces ≠ [] := by
  generalize finished : true = closed at chain
  cases chain with
  | cut stops => contradiction
  | last reads final => exact ⟨by simp, by simp⟩
  | more reads announces later => exact ⟨by simp, by simp⟩

theorem chunks_of_full (chain : ChainOf type extendedType group pieces true rest)
    (full : ∀ record ∈ group.dropLast, record.value.length = maxRecordValue)
    (filled : ∀ record ∈ group.getLast?, 2 < record.value.length)
    (positive : 0 < Container.maxFragment) :
    Octets.chunks Container.maxFragment positive (pieces.flatMap Piece.payload) =
      pieces.map Piece.payload := by
  -- the last piece may be shorter than the others, and is the whole of the last chunk
  generalize finished : true = closed at chain
  induction chain with
  | cut stops => contradiction
  | @last record piece rest reads final =>
      obtain ⟨-, flags, spelled, -⟩ := of_piece? reads
      have some := filled record rfl
      have short := record.length_le
      rw [spelled] at some short
      simp only [List.length_cons, maxRecordValue] at some short
      rw [List.flatMap_cons, List.flatMap_nil, List.append_nil, List.map_cons, List.map_nil]
      exact Octets.chunks_of_length_le (List.ne_nil_of_length_pos (by omega))
        (by simp only [Container.maxFragment, maxRecordValue]; omega)
  | @more record piece group rest pieces closed reads announces later ih =>
      subst finished
      obtain ⟨some, -⟩ := ne_nil_of_closed later
      obtain ⟨second, others, rfl⟩ := List.exists_cons_of_ne_nil some
      obtain ⟨-, flags, spelled, -⟩ := of_piece? reads
      have whole := full record List.mem_cons_self
      rw [spelled] at whole
      simp only [List.length_cons, maxRecordValue] at whole
      rw [List.flatMap_cons, List.map_cons, Octets.chunks_append]
      · rw [ih (fun later member => full later (List.mem_cons_of_mem record member))
          (fun last member => filled last (by rwa [List.getLast?_cons_cons])) rfl]
      · simp only [Container.maxFragment, maxRecordValue]
        omega

theorem split_of_asSent (chain : ChainOf type extendedType group pieces true rest)
    (sent : AsSent group) :
    Lowering.split (pieces.flatMap Piece.payload) = pieces.map Piece.payload := by
  obtain ⟨some, -⟩ := ne_nil_of_closed chain
  obtain ⟨record, others, rfl⟩ := List.exists_cons_of_ne_nil some
  obtain ⟨piece, behind, rfl, reads⟩ := reads_of_chainOf chain
  obtain ⟨-, flags, spelled, -⟩ := of_piece? reads
  have counted := length_of_chainOf chain
  unfold Lowering.split
  by_cases empty : ((piece :: behind).flatMap Piece.payload).isEmpty = true
  · -- only a record that is alone is empty, since the first of several is full
    rw [if_pos empty]
    rw [List.flatMap_cons, List.isEmpty_iff, List.append_eq_nil_iff] at empty
    cases others with
    | nil =>
        obtain rfl := List.length_eq_zero_iff.mp (Nat.succ.inj counted)
        rw [List.map_cons, empty.1, List.map_nil]
    | cons second later =>
        have whole := sent.full record List.mem_cons_self
        rw [spelled, empty.1] at whole
        simp [maxRecordValue] at whole
  · rw [if_neg empty]
    refine chunks_of_full chain sent.full ?_ _
    intro last member
    cases others with
    | cons second later => exact sent.filled last (by rwa [List.getLast?_cons_cons] at member)
    | nil =>
        obtain rfl : record = last := by simpa using member
        obtain rfl := List.length_eq_zero_iff.mp (Nat.succ.inj counted)
        rw [spelled]
        simpa [List.length_pos_iff] using empty

variable {record : Record} {piece : Piece}

theorem flags_of_piece (reads : piece? type extendedType (.raw record) = some piece)
    (unreserved : ∀ flags ∈ record.value[1]?, flags &&& Container.reservedFlags = 0) :
    record.type = type ∧
      record.value = extendedType :: Container.flags piece.more piece.truncated :: piece.payload := by
  obtain ⟨typed, flags, spelled, announces, marked⟩ := of_piece? reads
  have meaning := Container.flags_of_unreserved flags (unreserved flags (by rw [spelled]; rfl))
  rw [announces, marked, meaning]
  exact ⟨typed, spelled⟩

theorem resent_more (reads : piece? type extendedType (.raw record) = some piece)
    (announces : piece.more = true)
    (unreserved : ∀ flags ∈ record.value[1]?, flags &&& Container.reservedFlags = 0)
    (unmarked : ∀ flags ∈ record.value[1]?, flags &&& Container.truncatedFlag = 0) :
    piece.truncated = false ∧
      Record.make type (Container.longExtended extendedType true false piece.payload).octets =
        .ok record := by
  obtain ⟨typed, spelled⟩ := flags_of_piece reads unreserved
  have bare : piece.truncated = false := by
    have bit := unmarked _ (by rw [spelled]; rfl)
    have shown := (Container.flag_flags piece.more piece.truncated).2
    rw [bit] at shown
    exact shown.symm
  rw [bare, announces] at spelled
  exact ⟨bare, Record.make_eq_ok_iff.mpr ⟨typed, spelled⟩⟩

theorem resent_last (reads : piece? type extendedType (.raw record) = some piece)
    (final : piece.more = false)
    (unreserved : ∀ flags ∈ record.value[1]?, flags &&& Container.reservedFlags = 0) (mark : Bool)
    (kept : mark = piece.truncated ∨ mark = false) :
    ∃ again, Record.make type
        (Container.longExtended extendedType false mark piece.payload).octets = .ok again ∧
      record.SameButMark again ∧ (again = record ↔ mark = piece.truncated) := by
  obtain ⟨typed, spelled⟩ := flags_of_piece reads unreserved
  rw [final] at spelled
  have short : (Container.longExtended extendedType false mark piece.payload).octets.length ≤
      maxRecordValue := by
    have bound := record.length_le
    rw [spelled] at bound
    exact bound
  refine ⟨⟨type, _, short⟩, Record.make_eq_ok_iff.mpr ⟨rfl, rfl⟩, ?_, ?_⟩
  · rcases kept with rfl | rfl
    · left
      cases record
      cases typed
      cases spelled
      rfl
    · right
      refine ⟨typed.symm, ?_⟩
      rw [spelled]
      cases piece.truncated <;> rfl
  · constructor
    · intro same
      have values := congrArg Record.value same
      rw [spelled] at values
      simpa [Container.octets, Container.flags_inj] using values
    · rintro rfl
      cases record
      cases typed
      cases spelled
      rfl

theorem pieces_cons {mark : Bool} {chunk : Octets} {later : List Octets} (some : later ≠ []) :
    Lowering.pieces extendedType mark (chunk :: later) =
      .longExtended extendedType true false chunk :: Lowering.pieces extendedType mark later := by
  cases later with
  | nil => contradiction
  | cons next behind => rfl

/-- The pieces of a value in the form in which it is sent are sent again, and are the same but for
the mark that the value was given. -/
theorem resent_pieces (chain : ChainOf type extendedType group pieces true rest)
    (sent : AsSent group) (mark : Bool)
    (kept : mark = pieces.any Piece.truncated ∨ mark = false) :
    ∃ again, (Lowering.pieces extendedType mark (pieces.map Piece.payload)).mapM
        (fun piece => Record.make type piece.octets) = .ok again ∧
      List.Forall₂ Record.SameButMark group again ∧
      (again = group ↔ mark = pieces.any Piece.truncated) := by
  -- only the last piece can be marked, so all pieces before it are sent as they came
  generalize finished : true = closed at chain
  induction chain with
  | cut stops => contradiction
  | @last record piece rest reads final =>
      simp only [List.any_cons, List.any_nil, Bool.or_false] at kept ⊢
      obtain ⟨again, made, alike, same⟩ :=
        resent_last reads final (sent.unreserved record List.mem_cons_self) mark kept
      refine ⟨[again], ?_, .cons alike .nil, by rw [← same]; simp⟩
      exact Result.mapM_eq_ok_iff.mpr (.cons made .nil)
  | @more record piece group rest pieces closed reads announces later ih =>
      subst finished
      obtain ⟨some, someMore⟩ := ne_nil_of_closed later
      obtain ⟨second, others, rfl⟩ := List.exists_cons_of_ne_nil some
      obtain ⟨bare, made⟩ := resent_more reads announces
        (sent.unreserved record List.mem_cons_self) (sent.unmarked record List.mem_cons_self)
      simp only [List.any_cons, bare, Bool.false_or] at kept ⊢
      obtain ⟨again, remade, alike, same⟩ := ih sent.tail kept rfl
      refine ⟨record :: again, ?_, .cons (.inl rfl) alike, by rw [← same]; simp⟩
      rw [List.map_cons, pieces_cons (by simpa using someMore)]
      exact Result.mapM_eq_ok_iff.mpr (.cons made (Result.mapM_eq_ok_iff.mp remade))

end Pieces

end Lifting

end Radius
