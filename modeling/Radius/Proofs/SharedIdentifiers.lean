import Mathlib.Data.List.Nodup
import Radius.Proofs.Signing

/-!
Identifiers of requests that are encoded at the same time. Any number of codecs share one source of
identifiers, and any number of their calls are under way; a schedule says which call goes on next.
A request takes its identifier in one turn of its own, and no other turn moves the source. So the
requests get the identifiers in the order in which they take them, one after another modulo 256, and
those that fail afterwards have taken theirs too.
-/

namespace Radius

/-- A call that encodes a request. The random octets that it will get are named in advance, since
the calls beside it may draw from the same source. -/
structure RequestCall where
  codec : PacketCodec
  packet : Packet
  secret : Octets
  authenticator : Option Authenticator
  entropy : Entropy

namespace RequestCall

variable (call : RequestCall)

def header : Authenticator × Entropy :=
  call.codec.requestHeader call.packet call.authenticator call.entropy

def finish (header : Authenticator) (entropy : Entropy) (identifier : UInt8) :
    Except PacketError EncodedRequest :=
  (call.codec.encodeFrame call.packet call.secret identifier header entropy).1.map
    (call.codec.finishRequest call.packet call.secret identifier header)

/-- What the codec returns for the call if the next identifier is the given one. -/
def alone (identifier : UInt8) : Except PacketError EncodedRequest × Sources :=
  call.codec.encodeRequest call.packet call.secret call.authenticator ⟨call.entropy, identifier⟩

theorem finish_header (identifier : UInt8) :
    call.finish call.header.1 call.header.2 identifier = (call.alone identifier).1 := rfl

/-- The sources that are left have gone on by one identifier, whatever becomes of the call. -/
theorem identifier_left (identifier : UInt8) :
    (call.alone identifier).2.identifier = identifier + 1 := rfl

theorem identifier_of_alone {identifier : UInt8} {encoded : EncodedRequest}
    (ran : (call.alone identifier).1 = .ok encoded) :
    encoded.identifier = identifier ∧ encoded.octets[1]? = some identifier := by
  obtain ⟨octets, drawn, built, finished⟩ := PacketCodec.encodeRequest_eq_ok (Prod.ext ran rfl)
  obtain ⟨lowered, sent, -, -, spans, valid⟩ := PacketCodec.encodeFrame_eq_ok built
  obtain ⟨written, -⟩ := PacketCodec.finishRequest_passes rfl spans valid finished
  have same : encoded.identifier = identifier := by
    rw [finished, PacketCodec.finishRequest]
    split <;> rfl
  refine ⟨same, ?_⟩
  rw [written.octets_eq, ← same]
  rfl

end RequestCall

inductive PacketCall
  | encodeRequest (call : RequestCall)
  | encodeResponse (codec : PacketCodec) (packet : Packet) (secret : Octets) (identifier : UInt8)
      (request : Authenticator) (entropy : Entropy)
  | decodeRequest (codec : PacketCodec) (octets secret : Octets)
  | decodeResponse (codec : PacketCodec) (octets secret : Octets) (request : Authenticator)

def PacketCall.length : PacketCall → Nat
  | .encodeRequest _ => 3
  | _ => 1

inductive Progress
  | entered (call : PacketCall)
  | headed (call : RequestCall) (header : Authenticator) (entropy : Entropy)
  | numbered (call : RequestCall) (header : Authenticator) (entropy : Entropy) (identifier : UInt8)
  | sent (call : RequestCall) (identifier : UInt8) (result : Except PacketError EncodedRequest)
  | answered (result : Except PacketError Octets)
  | opened (result : Except Fault (Except PacketError Packet))

namespace Progress

def identifier? : Progress → Option UInt8
  | .numbered _ _ _ identifier => some identifier
  | .sent _ identifier _ => some identifier
  | _ => none

def takesNext : Progress → Bool
  | .headed .. => true
  | _ => false

def advance (next : UInt8) : Progress → Progress × UInt8
  | .entered (.encodeRequest call) => (.headed call call.header.1 call.header.2, next)
  | .entered (.encodeResponse codec packet secret identifier request entropy) =>
      let (result, sources) := codec.encodeResponse packet secret identifier request ⟨entropy, next⟩
      (.answered result, sources.identifier)
  | .entered (.decodeRequest codec octets secret) =>
      (.opened (codec.decodeRequest octets secret), next)
  | .entered (.decodeResponse codec octets secret request) =>
      (.opened (codec.decodeResponse octets secret request), next)
  | .headed call header entropy =>
      let (identifier, sources) := Sources.takeIdentifier ⟨entropy, next⟩
      (.numbered call header sources.entropy identifier, sources.identifier)
  | .numbered call header entropy identifier =>
      (.sent call identifier (call.finish header entropy identifier), next)
  | ended => (ended, next)

def Undisturbed : Progress → Prop
  | .headed call header entropy => call.header = (header, entropy)
  | .numbered call header entropy _ => call.header = (header, entropy)
  | .sent call identifier result => result = (call.alone identifier).1
  | _ => True

variable {progress : Progress}

theorem identifier?_of_takesNext (takes : progress.takesNext = true) (next : UInt8) :
    progress.identifier? = none ∧ (progress.advance next).1.identifier? = some next ∧
      (progress.advance next).2 = next + 1 := by
  cases progress with
  | headed call header entropy => exact ⟨rfl, rfl, rfl⟩
  | _ => contradiction

theorem identifier?_of_not_takesNext (keeps : progress.takesNext = false) (next : UInt8) :
    (progress.advance next).1.identifier? = progress.identifier? ∧
      (progress.advance next).2 = next := by
  cases progress with
  | headed call header entropy => contradiction
  | entered call => cases call <;> exact ⟨rfl, rfl⟩
  | numbered call header entropy identifier => exact ⟨rfl, rfl⟩
  | sent call identifier result => exact ⟨rfl, rfl⟩
  | answered result => exact ⟨rfl, rfl⟩
  | opened result => exact ⟨rfl, rfl⟩

theorem undisturbed_advance (undisturbed : progress.Undisturbed) (next : UInt8) :
    (progress.advance next).1.Undisturbed := by
  cases progress with
  | entered call =>
      cases call with
      | encodeRequest call => rfl
      | _ => trivial
  | headed call header entropy => exact undisturbed
  | numbered call header entropy identifier =>
      have same : call.header = (header, entropy) := undisturbed
      change call.finish header entropy identifier = (call.alone identifier).1
      rw [← call.finish_header, same]
  | sent call identifier result => exact undisturbed
  | answered result => trivial
  | opened result => trivial

end Progress

/-- Calls that share one source of identifiers: the identifier that comes next, the calls in the
order in which they entered, and the places of those that took an identifier, in the order in which
they took it. -/
structure Traffic where
  next : UInt8
  calls : List Progress
  draws : List Nat

inductive Turn
  | enter (call : PacketCall)
  | advance (place : Nat)

namespace Traffic

def start (first : UInt8) : Traffic := ⟨first, [], []⟩

def move (traffic : Traffic) (place : Nat) (progress : Progress) : Traffic where
  next := (progress.advance traffic.next).2
  calls := traffic.calls.set place (progress.advance traffic.next).1
  draws := if progress.takesNext then traffic.draws ++ [place] else traffic.draws

def take (traffic : Traffic) : Turn → Traffic
  | .enter call => { traffic with calls := traffic.calls ++ [.entered call] }
  | .advance place =>
      match traffic.calls[place]? with
      | none => traffic
      | some progress => traffic.move place progress

def after (traffic : Traffic) (schedule : List Turn) : Traffic := schedule.foldl take traffic

/-- The turns of a call that no other call comes between. It has the place behind those that entered
before it. -/
def turnsOf (traffic : Traffic) (call : PacketCall) : List Turn :=
  .enter call :: List.replicate call.length (.advance traffic.calls.length)

/-- The traffic after a call that no other call comes between, as its codec answers it: with the
result that is returned, and with the identifier that comes next in the sources that are left. -/
def perform (traffic : Traffic) : PacketCall → Traffic
  | .encodeRequest call =>
      let (result, left) := call.alone traffic.next
      ⟨left.identifier, traffic.calls ++ [.sent call traffic.next result],
        traffic.draws ++ [traffic.calls.length]⟩
  | .encodeResponse codec packet secret identifier request entropy =>
      let (result, left) :=
        codec.encodeResponse packet secret identifier request ⟨entropy, traffic.next⟩
      ⟨left.identifier, traffic.calls ++ [.answered result], traffic.draws⟩
  | .decodeRequest codec octets secret =>
      { traffic with
        calls := traffic.calls ++ [.opened (codec.decodeRequest octets secret)] }
  | .decodeResponse codec octets secret request =>
      { traffic with
        calls := traffic.calls ++ [.opened (codec.decodeResponse octets secret request)] }

def identifier? (traffic : Traffic) (place : Nat) : Option UInt8 :=
  traffic.calls[place]?.bind Progress.identifier?

/-- The identifiers are taken in order, by requests only, and by each of them once. -/
structure Orderly (first : UInt8) (traffic : Traffic) : Prop where
  counted : traffic.next = first + UInt8.ofNat traffic.draws.length
  distinct : traffic.draws.Nodup
  taken_iff : ∀ place identifier, traffic.identifier? place = some identifier ↔
    ∃ index, traffic.draws[index]? = some place ∧ identifier = first + UInt8.ofNat index
  undisturbed : ∀ progress ∈ traffic.calls, progress.Undisturbed

def Sends (traffic : Traffic) (index : Nat) (encoded : EncodedRequest) : Prop :=
  ∃ place call identifier, traffic.draws[index]? = some place ∧
    traffic.calls[place]? = some (.sent call identifier (.ok encoded))

section Alone

variable {next : UInt8} {calls : List Progress} {draws : List Nat} {progress : Progress}

theorem take_last :
    take ⟨next, calls ++ [progress], draws⟩ (.advance calls.length) =
      ⟨(progress.advance next).2, calls ++ [(progress.advance next).1],
        if progress.takesNext then draws ++ [calls.length] else draws⟩ := by
  have last : (calls ++ [progress])[calls.length]? = some progress := List.getElem?_concat_length
  simp only [take, last, move]
  rw [List.set_append_right _ _ (Nat.le_refl _), Nat.sub_self, List.set_cons_zero]

theorem after_turnsOf (traffic : Traffic) (call : PacketCall) :
    traffic.after (traffic.turnsOf call) = traffic.perform call := by
  obtain ⟨next, calls, draws⟩ := traffic
  have enters : take ⟨next, calls, draws⟩ (.enter call) = ⟨next, calls ++ [.entered call], draws⟩ :=
    rfl
  rw [after, turnsOf, List.foldl_cons, enters]
  cases call with
  | encodeRequest call =>
      simp only [PacketCall.length, List.replicate_succ, List.replicate_zero, List.foldl_cons,
        List.foldl_nil]
      rw [take_last, take_last, take_last]
      rfl
  | encodeResponse codec packet secret identifier request entropy => exact take_last
  | decodeRequest codec octets secret => exact take_last
  | decodeResponse codec octets secret request => exact take_last

end Alone

section Turns

variable {first : UInt8} {traffic : Traffic} {progress : Progress} {place other : Nat}

theorem orderly_start (first : UInt8) : (start first).Orderly first := by
  constructor
  · exact (UInt8.add_zero first).symm
  · exact List.nodup_nil
  · intro place identifier
    simp [start, identifier?]
  · intro progress member
    contradiction

theorem identifier?_enter (call : PacketCall) (place : Nat) :
    (traffic.take (.enter call)).identifier? place = traffic.identifier? place := by
  simp only [take, identifier?, List.getElem?_append]
  by_cases old : place < traffic.calls.length
  · rw [if_pos old]
  · rw [if_neg old, List.getElem?_eq_none (Nat.le_of_not_lt old)]
    cases place - traffic.calls.length <;> rfl

theorem identifier?_move (here : traffic.calls[place]? = some progress) (other : Nat) :
    (traffic.move place progress).identifier? other =
      if place = other then (progress.advance traffic.next).1.identifier?
      else traffic.identifier? other := by
  have within := (List.getElem?_eq_some_iff.mp here).1
  unfold identifier? move
  rw [List.getElem?_set]
  by_cases same : place = other
  · simp [same, same ▸ within]
  · simp [same]

theorem identifier?_of_here (here : traffic.calls[place]? = some progress) :
    traffic.identifier? place = progress.identifier? := by
  rw [identifier?, here, Option.bind_some]

theorem getElem?_behind {places : List Nat} {index : Nat} :
    (places ++ [place])[index]? = some other ↔
      places[index]? = some other ∨ index = places.length ∧ place = other := by
  by_cases old : index < places.length
  · rw [List.getElem?_append_left old]
    simp [Nat.ne_of_lt old]
  · rw [List.getElem?_append_right (Nat.le_of_not_lt old), List.getElem?_singleton,
      List.getElem?_eq_none (Nat.le_of_not_lt old)]
    by_cases last : index = places.length
    · simp [last]
    · simp [last]
      omega

theorem Orderly.enter (orderly : traffic.Orderly first) (call : PacketCall) :
    (traffic.take (.enter call)).Orderly first := by
  refine ⟨orderly.counted, orderly.distinct, ?_, ?_⟩
  · intro place identifier
    rw [identifier?_enter]
    exact orderly.taken_iff place identifier
  · intro progress member
    rcases List.mem_append.mp member with old | new
    · exact orderly.undisturbed progress old
    · rw [List.mem_singleton.mp new]
      trivial

theorem Orderly.undisturbed_move (orderly : traffic.Orderly first)
    (here : traffic.calls[place]? = some progress) :
    ∀ moved ∈ (traffic.move place progress).calls, moved.Undisturbed := by
  intro moved member
  rcases List.mem_or_eq_of_mem_set member with old | rfl
  · exact orderly.undisturbed moved old
  · exact Progress.undisturbed_advance
      (orderly.undisturbed progress (List.mem_of_getElem? here)) traffic.next

/-- In its turn a request gets the identifier that follows those taken before. -/
theorem Orderly.move_takes (orderly : traffic.Orderly first)
    (here : traffic.calls[place]? = some progress) (takes : progress.takesNext = true) :
    (traffic.move place progress).Orderly first := by
  have draws : (traffic.move place progress).draws = traffic.draws ++ [place] := if_pos takes
  obtain ⟨before, behind, moved⟩ := Progress.identifier?_of_takesNext takes traffic.next
  -- a request that waits for its identifier has none, so it has not taken one before
  have fresh : place ∉ traffic.draws := by
    intro drawn
    obtain ⟨index, found⟩ := List.getElem?_of_mem drawn
    have already := (orderly.taken_iff place _).mpr ⟨index, found, rfl⟩
    rw [identifier?_of_here here, before] at already
    contradiction
  refine ⟨?_, ?_, ?_, orderly.undisturbed_move here⟩
  · calc (progress.advance traffic.next).2
      _ = first + UInt8.ofNat traffic.draws.length + 1 := by rw [moved, orderly.counted]
      _ = first + UInt8.ofNat (traffic.draws ++ [place]).length := by
          rw [List.length_append, List.length_singleton, UInt8.ofNat_add, UInt8.add_assoc]
          rfl
      _ = first + UInt8.ofNat (traffic.move place progress).draws.length := by rw [draws]
  · rw [draws, ← List.concat_eq_append]
    exact orderly.distinct.concat fresh
  · intro other identifier
    simp only [identifier?_move here, draws, getElem?_behind]
    by_cases same : place = other
    · subst same
      rw [if_pos rfl, behind, orderly.counted, Option.some.injEq]
      constructor
      · rintro rfl
        exact ⟨_, .inr ⟨rfl, rfl⟩, rfl⟩
      · rintro ⟨index, found | ⟨rfl, -⟩, rfl⟩
        · exact absurd (List.mem_of_getElem? found) fresh
        · rfl
    · rw [if_neg same, orderly.taken_iff]
      simp only [same, and_false, or_false]

theorem Orderly.move_keeps (orderly : traffic.Orderly first)
    (here : traffic.calls[place]? = some progress) (keeps : progress.takesNext = false) :
    (traffic.move place progress).Orderly first := by
  have draws : (traffic.move place progress).draws = traffic.draws := by simp [move, keeps]
  obtain ⟨same, still⟩ := Progress.identifier?_of_not_takesNext keeps traffic.next
  refine ⟨?_, draws ▸ orderly.distinct, ?_, orderly.undisturbed_move here⟩
  · rw [draws, ← orderly.counted]
    exact still
  · intro other identifier
    rw [draws, ← orderly.taken_iff, identifier?_move here]
    by_cases moved : place = other
    · rw [if_pos moved, same, ← moved, identifier?_of_here here]
    · rw [if_neg moved]

theorem Orderly.take (orderly : traffic.Orderly first) (turn : Turn) :
    (traffic.take turn).Orderly first := by
  cases turn with
  | enter call => exact orderly.enter call
  | advance place =>
      rw [Traffic.take]
      cases here : traffic.calls[place]? with
      | none => exact orderly
      | some progress =>
          cases takes : progress.takesNext with
          | true => exact orderly.move_takes here takes
          | false => exact orderly.move_keeps here takes

theorem Orderly.after (orderly : traffic.Orderly first) (schedule : List Turn) :
    (traffic.after schedule).Orderly first := by
  induction schedule generalizing traffic with
  | nil => exact orderly
  | cons turn rest ih => exact ih (orderly.take turn)

theorem eq_add_iff_toNat {first identifier : UInt8} {index : Nat} :
    identifier = first + UInt8.ofNat index ↔ identifier.toNat = (first.toNat + index) % 256 := by
  rw [← UInt8.toNat_inj, UInt8.toNat_add, UInt8.toNat_ofNat']
  simp

theorem Orderly.identifier_of_sends (orderly : traffic.Orderly first) {index : Nat}
    {encoded : EncodedRequest} (sends : traffic.Sends index encoded) :
    encoded.identifier.toNat = (first.toNat + index) % 256 ∧
      encoded.octets[1]? = some encoded.identifier := by
  obtain ⟨place, call, identifier, drawn, here⟩ := sends
  have taken : traffic.identifier? place = some identifier := identifier?_of_here here
  have turn : traffic.identifier? place = some (first + UInt8.ofNat index) :=
    (orderly.taken_iff place _).mpr ⟨index, drawn, rfl⟩
  have alone : .ok encoded = (call.alone identifier).1 :=
    orderly.undisturbed _ (List.mem_of_getElem? here)
  obtain ⟨same, written⟩ := call.identifier_of_alone alone.symm
  rw [taken, Option.some.injEq] at turn
  rw [same]
  exact ⟨eq_add_iff_toNat.mp turn, written⟩

end Turns

/-- Whatever the schedule, the requests get the identifiers from the first one on, modulo 256, in
the order in which they take them, each of them one and nothing else any. Every request ends as its
codec encodes it with its identifier, which leaves the following one to the others, and which is the
second octet of the packet if there is one. So two packets have different identifiers if fewer than
255 other requests took theirs in between. A call that no other call comes between does with the
sources what its codec does. -/
theorem identifiers_in_order (first : UInt8) (schedule : List Turn) :
    let traffic := (start first).after schedule
    (∀ place identifier, traffic.identifier? place = some identifier ↔
      ∃ index, traffic.draws[index]? = some place ∧
        identifier.toNat = (first.toNat + index) % 256) ∧
    traffic.draws.Nodup ∧
    traffic.next.toNat = (first.toNat + traffic.draws.length) % 256 ∧
    (∀ call identifier result, .sent call identifier result ∈ traffic.calls →
      ∃ left, call.codec.encodeRequest call.packet call.secret call.authenticator
          ⟨call.entropy, identifier⟩ = (result, left) ∧ left.identifier = identifier + 1) ∧
    (∀ index encoded, traffic.Sends index encoded →
      encoded.identifier.toNat = (first.toNat + index) % 256 ∧
        encoded.octets[1]? = some encoded.identifier) ∧
    (∀ earlier later encoded other, traffic.Sends earlier encoded → traffic.Sends later other →
      earlier < later → later - earlier - 1 < 255 → encoded.identifier ≠ other.identifier) ∧
    ∀ call, traffic.after (traffic.turnsOf call) = traffic.perform call := by
  intro traffic
  have orderly : traffic.Orderly first := (orderly_start first).after schedule
  refine ⟨?_, orderly.distinct, eq_add_iff_toNat.mp orderly.counted, ?_, ?_, ?_,
    traffic.after_turnsOf⟩
  · intro place identifier
    simp only [← eq_add_iff_toNat]
    exact orderly.taken_iff place identifier
  · intro call identifier result member
    have ended : result = (call.alone identifier).1 := orderly.undisturbed _ member
    exact ⟨(call.alone identifier).2, Prod.ext ended.symm rfl, call.identifier_left identifier⟩
  · intro index encoded sends
    exact orderly.identifier_of_sends sends
  · intro earlier later encoded other sends follows ordered between same
    have left := (orderly.identifier_of_sends sends).1
    have right := (orderly.identifier_of_sends follows).1
    rw [same, right] at left
    omega

/-- The call that entered last takes the last identifier before they begin again. -/
example (call other : RequestCall) :
    let traffic := (start 255).after [.enter (.encodeRequest call), .enter (.encodeRequest other),
      .advance 0, .advance 1, .advance 1, .advance 0]
    traffic.draws = [1, 0] ∧ traffic.identifier? 1 = some 255 ∧ traffic.identifier? 0 = some 0 := by
  cbv

end Traffic

end Radius
