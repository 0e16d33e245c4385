import Mathlib.Algebra.GroupWithZero.Nat
import Radius.Proofs.FirstPass
import Radius.Proofs.Opened

/-!
Lowering and lifting as loops over a worklist. A turn takes the front of what is pending; it may put
one attribute or many records back in front, or it may settle nothing. What it puts back stands on a
shorter path or encloses fewer octets, though, so the loops come to their ends, with the results of
lowering and lifting, after so many turns as paths have segments and payloads have octets.
-/

namespace Radius

section Loops

variable {state failure : Type}

inductive Turns (turn : state → Option (Except failure state)) : Nat → state → state → Prop
  | none (now : state) : Turns turn 0 now now
  | next {now later final : state} {count : Nat} (turned : turn now = some (.ok later))
      (further : Turns turn count later final) : Turns turn (count + 1) now final

/-- The loop takes the state to the outcome: to another state, or to a failure in the last turn. It
takes no more turns than are allowed, where some are free: those that a state has more of than the
first state had. -/
inductive Runs (turn : state → Option (Except failure state)) (free : state → Nat) (start : state)
    (allowed : Nat) : Except failure state → Prop
  | reaches {count : Nat} {final : state} (turns : Turns turn count start final)
      (within : count + free start ≤ allowed + free final) : Runs turn free start allowed (.ok final)
  | fails {count : Nat} {last : state} {cause : failure} (turns : Turns turn count start last)
      (stuck : turn last = some (.error cause))
      (within : count + 1 + free start ≤ allowed + free last) :
      Runs turn free start allowed (.error cause)

def Terminates (turn : state → Option (Except failure state)) (start : state) : Prop :=
  ∃ limit, ∀ count now, Turns turn count start now → count ≤ limit

variable {turn : state → Option (Except failure state)} {free : state → Nat}
  {start middle final : state} {count more allowed total : Nat} {cause : failure}
  {outcome : Except failure state}

theorem Turns.append (first : Turns turn count start middle) (second : Turns turn more middle final) :
    Turns turn (count + more) start final := by
  induction first with
  | none now =>
      rw [Nat.zero_add]
      exact second
  | @next now later middle count turned further ih =>
      rw [Nat.add_right_comm]
      exact .next turned (ih second)

theorem Runs.idle : Runs turn free start 0 (.ok start) :=
  .reaches (.none start) (Nat.le_refl _)

theorem Runs.of_stuck (stuck : turn start = some (.error cause)) :
    Runs turn free start 1 (.error cause) :=
  .fails (.none start) stuck (Nat.le_refl _)

theorem Runs.append (first : Runs turn free start allowed (.ok middle))
    (second : Runs turn free middle total outcome) :
    Runs turn free start (allowed + total) outcome := by
  cases first with
  | reaches before within =>
      cases second with
      | reaches turns most => exact .reaches (before.append turns) (by omega)
      | fails turns stuck most => exact .fails (before.append turns) stuck (by omega)

theorem Runs.next (turned : turn start = some (.ok middle))
    (further : Runs turn free middle allowed outcome)
    (paid : allowed + 1 + free start ≤ total + free middle) : Runs turn free start total outcome := by
  cases further with
  | reaches turns within => exact .reaches (.next turned turns) (by omega)
  | fails turns stuck within => exact .fails (.next turned turns) stuck (by omega)

theorem Runs.mono (runs : Runs turn free start allowed outcome) (most : allowed ≤ total) :
    Runs turn free start total outcome := by
  cases runs with
  | reaches turns within => exact .reaches turns (by omega)
  | fails turns stuck within => exact .fails turns stuck (by omega)

theorem Turns.le_of_last {now last : state} (turns : Turns turn count start now)
    (whole : Turns turn total start last) (ended : ∀ later, turn last ≠ some (.ok later)) :
    count ≤ total := by
  induction turns generalizing total with
  | none now => exact Nat.zero_le total
  | @next now later final count turned further ih =>
      cases whole with
      | none => exact absurd turned (ended later)
      | next again behind =>
          rw [turned] at again
          cases again
          exact Nat.succ_le_succ (ih behind)

theorem Runs.terminates (runs : Runs turn free start allowed outcome)
    (idle : ∀ final, outcome = .ok final → turn final = none) : Terminates turn start := by
  cases runs with
  | @reaches count final turns =>
      refine ⟨count, fun steps now begun => begun.le_of_last turns fun later turned => ?_⟩
      rw [idle final rfl] at turned
      contradiction
  | @fails count last cause turns stuck =>
      refine ⟨count, fun steps now begun => begun.le_of_last turns fun later turned => ?_⟩
      cases stuck.symm.trans turned

end Loops

theorem Drawing.bind_apply {failure value result : Type} (first : Drawing failure value)
    (next : value → Drawing failure result) (source : Entropy) :
    (first >>= next : Drawing failure result) source =
      match first source with
      | (.ok found, later) => next found later
      | (.error cause, later) => (.error cause, later) := by
  have unfolded : (first >>= next : Drawing failure result) source =
      ExceptT.bindCont next (first source).1 (first source).2 := rfl
  rw [unfolded]
  rcases first source with ⟨- | found, later⟩ <;> rfl

namespace Lowering

structure Sending where
  pending : List Attribute
  sent : List Record
  source : Entropy

/-- A record is finished. Any other attribute is lowered once, and what comes of it is put back in
front of the others. -/
def sendTurn (exchange : Exchange) (dictionary : Dictionary) :
    Sending → Option (Except (PacketError × Entropy) Sending)
  | ⟨[], _, _⟩ => none
  | ⟨.raw record :: rest, sent, source⟩ => some (.ok ⟨rest, sent ++ [record], source⟩)
  | ⟨front :: rest, sent, source⟩ =>
      match lowerOnce exchange dictionary front source with
      | (.ok (.records records), later) => some (.ok ⟨records.map .raw ++ rest, sent, later⟩)
      | (.ok (.enclosed outer _), later) => some (.ok ⟨outer :: rest, sent, later⟩)
      | (.error cause, later) => some (.error (cause, later))

def Sending.after (rest : List Attribute) (sent : List Record) :
    Except PacketError (List Record) × Entropy → Except (PacketError × Entropy) Sending
  | (.ok records, source) => .ok ⟨rest, sent ++ records, source⟩
  | (.error cause, source) => .error (cause, source)

def Sending.finished (now : Sending) : Nat := now.sent.length

section Sending

variable (exchange : Exchange) (dictionary : Dictionary)

theorem runs_records (records sent : List Record) (rest : List Attribute) (source : Entropy) :
    Runs (sendTurn exchange dictionary) Sending.finished ⟨records.map .raw ++ rest, sent, source⟩ 0
      (.ok ⟨rest, sent ++ records, source⟩) := by
  induction records generalizing sent with
  | nil =>
      rw [List.append_nil]
      exact .idle
  | cons record records ih =>
      have later := ih (sent ++ [record])
      rw [List.append_assoc, List.singleton_append] at later
      refine .next rfl later ?_
      simp only [Sending.finished, List.length_append, List.length_singleton]
      omega

theorem sendTurn_of_value {entry : Attribute} {value : Value} (holds : entry.value? = some value)
    (rest : List Attribute) (sent : List Record) (source : Entropy) :
    sendTurn exchange dictionary ⟨entry :: rest, sent, source⟩ =
      match lowerOnce exchange dictionary entry source with
      | (.ok (.records records), later) => some (.ok ⟨records.map .raw ++ rest, sent, later⟩)
      | (.ok (.enclosed outer _), later) => some (.ok ⟨outer :: rest, sent, later⟩)
      | (.error cause, later) => some (.error (cause, later)) := by
  cases entry with
  | raw record => contradiction
  | _ => rfl

theorem lower_apply (entry : Attribute) (source : Entropy) :
    lower exchange dictionary entry source =
      match lowerOnce exchange dictionary entry source with
      | (.ok (.records records), later) => (.ok records, later)
      | (.ok (.enclosed outer _), later) => lower exchange dictionary outer later
      | (.error cause, later) => (.error cause, later) := by
  rw [lower, Drawing.bind_apply]
  rcases lowerOnce exchange dictionary entry source with ⟨- | - | -, later⟩ <;> rfl

theorem lowerAll_cons (entry : Attribute) (entries : List Attribute) (source : Entropy) :
    lowerAll exchange dictionary (entry :: entries) source =
      match lower exchange dictionary entry source with
      | (.error cause, later) => (.error cause, later)
      | (.ok front, later) =>
          match lowerAll exchange dictionary entries later with
          | (.error cause, final) => (.error cause, final)
          | (.ok behind, final) => (.ok (front ++ behind), final) := by
  rw [lowerAll, List.mapM_cons, Drawing.bind_apply, Drawing.bind_apply]
  rcases lower exchange dictionary entry source with ⟨- | front, later⟩
  · rfl
  · dsimp only
    rw [lowerAll, Drawing.bind_apply, Drawing.bind_apply]
    rcases entries.mapM (lower exchange dictionary) later with ⟨- | behind, final⟩ <;> rfl

/-- An attribute is lowered in no more turns than its path has segments, apart from the turns that
finish its records. -/
theorem runs_lower (entry : Attribute) (rest : List Attribute) (sent : List Record)
    (source : Entropy) :
    Runs (sendTurn exchange dictionary) Sending.finished ⟨entry :: rest, sent, source⟩
      entry.path.depth (Sending.after rest sent (lower exchange dictionary entry source)) := by
  -- On the depth of the path, which is less for what encloses the attribute.
  induction deep : entry.path.depth using Nat.strongRecOn generalizing entry source with
  | ind bound ih =>
      have positive := entry.path.depth_pos
      rw [lower_apply]
      cases holds : entry.value? with
      | none =>
          obtain ⟨record, rfl⟩ := eq_raw_of_value? holds
          refine .next rfl .idle ?_
          simp only [Sending.finished, List.length_append, List.length_singleton]
          omega
      | some value =>
          have turned := sendTurn_of_value exchange dictionary holds rest sent source
          rcases result : lowerOnce exchange dictionary entry source with ⟨step, later⟩
          rw [result] at turned
          cases step with
          | error cause => exact (Runs.of_stuck turned).mono (by omega)
          | ok step =>
              cases step with
              | records records =>
                  refine .next turned (runs_records exchange dictionary records sent rest later) ?_
                  simp only [Sending.finished]
                  omega
              | enclosed outer shallower =>
                  have further := ih outer.path.depth (by omega) outer later rfl
                  refine .next turned further ?_
                  simp only [Sending.finished]
                  omega

theorem runs_lowerAll (entries rest : List Attribute) (sent : List Record) (source : Entropy) :
    Runs (sendTurn exchange dictionary) Sending.finished ⟨entries ++ rest, sent, source⟩
      (entries.map fun entry => entry.path.depth).sum
      (Sending.after rest sent (lowerAll exchange dictionary entries source)) := by
  induction entries generalizing sent source with
  | nil =>
      have none : lowerAll exchange dictionary [] source = (.ok [], source) := rfl
      rw [none, Sending.after, List.append_nil]
      exact .idle
  | cons entry entries ih =>
      have front := runs_lower exchange dictionary entry (entries ++ rest) sent source
      rw [lowerAll_cons, List.map_cons, List.sum_cons]
      rcases lowered : lower exchange dictionary entry source with ⟨cause | records, later⟩
      · rw [lowered] at front
        exact front.mono (Nat.le_add_right ..)
      · rw [lowered] at front
        have behind := ih (sent ++ records) later
        dsimp only
        rcases further : lowerAll exchange dictionary entries later with ⟨cause | others, final⟩
        · rw [further] at behind
          exact front.append behind
        · rw [further, Sending.after, List.append_assoc] at behind
          exact front.append behind

theorem terminates_sendTurn (start : Sending) :
    Terminates (sendTurn exchange dictionary) start := by
  have runs := runs_lowerAll exchange dictionary start.pending [] start.sent start.source
  rw [List.append_nil] at runs
  refine runs.terminates fun final ended => ?_
  rcases lowered : lowerAll exchange dictionary start.pending start.source with
    ⟨cause | records, later⟩
  · rw [lowered] at ended
    cases ended
  · rw [lowered] at ended
    cases ended
    rfl

end Sending

end Lowering

namespace Lifting

structure Passing where
  settled : List Attribute
  pending : List Attribute

/-- The first pass settles the front, or more than the front. -/
def promoteTurn (exchange : Exchange) (dictionary : Dictionary) :
    Passing → Option (Except Fault Passing)
  | ⟨_, []⟩ => none
  | ⟨settled, front :: rest⟩ =>
      some ((promoteOnce exchange dictionary front rest).map fun step =>
        ⟨settled ++ step.settled, step.pending⟩)

/-- The second pass settles the front, or it puts back what the front encloses and settles nothing.
-/
def expandTurn (exchange : Exchange) (dictionary : Dictionary) :
    Passing → Option (Except Fault Passing)
  | ⟨_, []⟩ => none
  | ⟨settled, front :: rest⟩ =>
      some ((openOnce exchange dictionary front).map fun opened =>
        match opened with
        | none => ⟨settled ++ [front], rest⟩
        | some inner => ⟨settled, inner :: rest⟩)

section Passing

variable (exchange : Exchange) (dictionary : Dictionary)

theorem runs_promoteAll (settled pending : List Attribute) :
    Runs (promoteTurn exchange dictionary) (fun _ => 0) ⟨settled, pending⟩ pending.length
      ((promoteAll exchange dictionary pending).map fun promoted => ⟨settled ++ promoted, []⟩) := by
  induction size : pending.length using Nat.strongRecOn generalizing settled pending with
  | ind bound ih =>
      cases pending with
      | nil =>
          have none : promoteAll exchange dictionary [] = .ok [] := by rw [promoteAll]
          rw [none, Except.map, List.append_nil]
          exact Runs.idle.mono (Nat.zero_le _)
      | cons front rest =>
          have turned : promoteTurn exchange dictionary ⟨settled, front :: rest⟩ =
            some ((promoteOnce exchange dictionary front rest).map fun step =>
              ⟨settled ++ step.settled, step.pending⟩) := rfl
          rw [promoteAll_cons]
          cases promoted : promoteOnce exchange dictionary front rest with
          | error fault =>
              rw [promoted] at turned
              exact (Runs.of_stuck turned).mono (size ▸ Nat.le_add_left ..)
          | ok step =>
              rw [promoted] at turned
              have shorter : step.pending.length < bound := size ▸ step.shorter
              have further := ih _ shorter (settled ++ step.settled) step.pending rfl
              simp only [bind, Except.bind]
              cases later : promoteAll exchange dictionary step.pending with
              | error fault =>
                  rw [later] at further
                  exact .next turned further (Nat.succ_le_of_lt shorter)
              | ok others =>
                  rw [later, Except.map, List.append_assoc] at further
                  exact .next turned further (Nat.succ_le_of_lt shorter)

/-- An attribute is examined once, and once again for every octet that its container encloses at
most, and once for the container itself. -/
theorem runs_expand (entry : Attribute) (settled rest : List Attribute) :
    Runs (expandTurn exchange dictionary) (fun _ => 0) ⟨settled, entry :: rest⟩
      (enclosedLength entry + 1)
      ((expand exchange dictionary entry).map fun final => ⟨settled ++ [final], rest⟩) := by
  -- On the enclosed octets, which are fewer in what was opened.
  induction size : enclosedLength entry using Nat.strongRecOn generalizing entry with
  | ind bound ih =>
      have turned : expandTurn exchange dictionary ⟨settled, entry :: rest⟩ =
        some ((openOnce exchange dictionary entry).map fun opened =>
          match opened with
          | none => ⟨settled ++ [entry], rest⟩
          | some inner => ⟨settled, inner :: rest⟩) := rfl
      rw [expand_step]
      cases opened : openOnce exchange dictionary entry with
      | error fault =>
          rw [opened] at turned
          exact (Runs.of_stuck turned).mono (Nat.le_add_left ..)
      | ok found =>
          rw [opened] at turned
          cases found with
          | none => exact .next turned .idle (Nat.le_add_left ..)
          | some inner =>
              have smaller := enclosedLength_lt_of_opens (opens_of_openOnce opened)
              rw [size] at smaller
              exact .next turned (ih _ smaller inner rfl) (Nat.succ_le_succ smaller)

theorem runs_mapM_expand (entries settled rest : List Attribute) :
    Runs (expandTurn exchange dictionary) (fun _ => 0) ⟨settled, entries ++ rest⟩
      (entries.map fun entry => enclosedLength entry + 1).sum
      ((entries.mapM (expand exchange dictionary)).map fun lifted => ⟨settled ++ lifted, rest⟩) := by
  induction entries generalizing settled with
  | nil =>
      have none : ([] : List Attribute).mapM (expand exchange dictionary) = .ok [] := rfl
      rw [none, Except.map, List.append_nil]
      exact .idle
  | cons entry entries ih =>
      have front := runs_expand exchange dictionary entry settled (entries ++ rest)
      rw [List.mapM_cons, List.map_cons, List.sum_cons]
      cases expanded : expand exchange dictionary entry with
      | error fault =>
          rw [expanded] at front
          exact front.mono (Nat.le_add_right ..)
      | ok final =>
          rw [expanded] at front
          have behind := ih (settled ++ [final])
          simp only [bind, Except.bind]
          cases later : entries.mapM (expand exchange dictionary) with
          | error fault =>
              rw [later] at behind
              exact front.append behind
          | ok others =>
              rw [later, Except.map, List.append_assoc] at behind
              exact front.append behind

theorem terminates_of_pass {turn : Passing → Option (Except Fault Passing)} {start : Passing}
    {allowed : Nat} {result : Except Fault (List Attribute)}
    (runs : Runs turn (fun _ => 0) start allowed
      (result.map fun done => ⟨start.settled ++ done, []⟩))
    (idle : ∀ settled, turn ⟨settled, []⟩ = none) : Terminates turn start := by
  refine runs.terminates fun final ended => ?_
  cases result with
  | error fault => contradiction
  | ok done =>
      cases ended
      exact idle _

theorem terminates_promoteTurn (start : Passing) :
    Terminates (promoteTurn exchange dictionary) start :=
  terminates_of_pass (runs_promoteAll exchange dictionary start.settled start.pending) fun _ => rfl

theorem terminates_expandTurn (start : Passing) :
    Terminates (expandTurn exchange dictionary) start := by
  have runs := runs_mapM_expand exchange dictionary start.pending start.settled []
  rw [List.append_nil] at runs
  exact terminates_of_pass runs fun _ => rfl

end Passing

end Lifting

open Lowering Lifting in
/-- All loops end, whatever the dictionary says, and so do they give their results. An attribute is
lowered in as many turns as its path has segments at most, apart from one turn for every record that
is sent. The first pass of lifting takes no more turns than there are records, and the second one no
more for an attribute than a first look at it and as many further ones as its value encloses octets,
with one more for the container itself. -/
theorem worklists_end (exchange : Exchange) (dictionary : Dictionary) :
    (∀ entries rest sent source,
      Runs (sendTurn exchange dictionary) Sending.finished ⟨entries ++ rest, sent, source⟩
        (entries.map fun entry => entry.path.depth).sum
        (Sending.after rest sent (lowerAll exchange dictionary entries source))) ∧
    (∀ settled pending,
      Runs (promoteTurn exchange dictionary) (fun _ => 0) ⟨settled, pending⟩ pending.length
        ((promoteAll exchange dictionary pending).map fun promoted => ⟨settled ++ promoted, []⟩)) ∧
    (∀ entries settled rest,
      Runs (expandTurn exchange dictionary) (fun _ => 0) ⟨settled, entries ++ rest⟩
        (entries.map fun entry => enclosedLength entry + 1).sum
        ((entries.mapM (expand exchange dictionary)).map fun lifted =>
          ⟨settled ++ lifted, rest⟩)) ∧
    (∀ start, Terminates (sendTurn exchange dictionary) start) ∧
    (∀ start, Terminates (promoteTurn exchange dictionary) start) ∧
    ∀ start, Terminates (expandTurn exchange dictionary) start :=
  ⟨runs_lowerAll exchange dictionary, runs_promoteAll exchange dictionary,
    runs_mapM_expand exchange dictionary, terminates_sendTurn exchange dictionary,
    terminates_promoteTurn exchange dictionary, terminates_expandTurn exchange dictionary⟩

end Radius
