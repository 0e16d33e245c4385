import Mathlib.Data.List.Forall2
import Radius.Secret.Entropy

/-!
Computations that may fail, taken apart. A sequence of steps has a result exactly when each step has
one; the same holds of computations that draw random octets, whose source passes from step to step.
-/

namespace Radius

namespace Result

variable {failure value other : Type}

theorem bind_eq_ok_iff {first : Except failure value} {next : value → Except failure other}
    {result : other} :
    (first >>= next) = .ok result ↔ ∃ found, first = .ok found ∧ next found = .ok result := by
  cases first with
  | error cause => simp [bind, Except.bind]
  | ok found => simp [bind, Except.bind]

theorem bind_eq_error_iff {first : Except failure value} {next : value → Except failure other}
    {cause : failure} :
    (first >>= next) = .error cause ↔
      first = .error cause ∨ ∃ found, first = .ok found ∧ next found = .error cause := by
  cases first with
  | error cause => simp [bind, Except.bind]
  | ok found => simp [bind, Except.bind]

theorem toOption_eq_some_iff {result : Except failure value} {found : value} :
    result.toOption = some found ↔ result = .ok found := by
  cases result with
  | error cause => simp [Except.toOption]
  | ok kept => simp [Except.toOption]

theorem mapError_eq_ok_iff {rename : failure → other} {result : Except failure value}
    {found : value} : result.mapError rename = .ok found ↔ result = .ok found := by
  cases result with
  | error cause =>
      constructor
      · intro failed
        cases failed
      · intro failed
        cases failed
  | ok kept =>
      constructor
      · intro same
        cases same
        rfl
      · intro same
        cases same
        rfl

theorem mapError_eq_error_iff {rename : failure → other} {result : Except failure value}
    {cause : other} :
    result.mapError rename = .error cause ↔ ∃ found, result = .error found ∧ rename found = cause := by
  cases result with
  | error found => simp [Except.mapError]
  | ok kept => simp [Except.mapError]

theorem mapError_bind {result : Type} {rename : failure → other} {first : Except failure value}
    {next : value → Except failure result} :
    (first >>= next).mapError rename =
      first.mapError rename >>= fun found => (next found).mapError rename := by
  cases first <;> rfl

theorem mapError_mapM {result : Type} {rename : failure → other} {step : value → Except failure result}
    {inputs : List value} :
    (inputs.mapM step).mapError rename = inputs.mapM fun input => (step input).mapError rename := by
  induction inputs with
  | nil => rfl
  | cons first rest ih =>
      rw [List.mapM_cons, List.mapM_cons, mapError_bind]
      simp only [mapError_bind, ih]
      rfl

theorem mapM_eq_ok_iff {step : value → Except failure other} {inputs : List value}
    {outputs : List other} :
    inputs.mapM step = .ok outputs ↔
      List.Forall₂ (fun input output => step input = .ok output) inputs outputs := by
  induction inputs generalizing outputs with
  | nil => simp [pure, Except.pure, eq_comm]
  | cons first rest ih =>
      simp only [List.mapM_cons, bind_eq_ok_iff, ih, pure, Except.pure, Except.ok.injEq,
        List.forall₂_cons_left_iff]
      constructor
      · rintro ⟨output, front, later, tail, rfl⟩
        exact ⟨output, later, front, tail, rfl⟩
      · rintro ⟨output, later, front, tail, rfl⟩
        exact ⟨output, front, later, tail, rfl⟩

theorem mapM_eq_some_iff {read : value → Option other} {inputs : List value}
    {outputs : List other} :
    inputs.mapM read = some outputs ↔
      List.Forall₂ (fun input output => read input = some output) inputs outputs := by
  induction inputs generalizing outputs with
  | nil => simp [eq_comm]
  | cons first rest ih =>
      simp only [List.mapM_cons, Option.bind_eq_bind, Option.bind_eq_some_iff, Option.pure_def,
        Option.some.injEq, List.forall₂_cons_left_iff, ih]
      constructor
      · rintro ⟨output, front, later, tail, rfl⟩
        exact ⟨output, later, front, tail, rfl⟩
      · rintro ⟨output, later, front, tail, rfl⟩
        exact ⟨output, front, later, tail, rfl⟩

theorem mapM_of_forall_ok {step : value → Except failure other} {inputs : List value}
    (found : value → other) (each : ∀ input ∈ inputs, step input = .ok (found input)) :
    inputs.mapM step = .ok (inputs.map found) := by
  rw [mapM_eq_ok_iff, List.forall₂_map_right_iff, List.forall₂_same]
  exact each

theorem exists_of_mapM_eq_ok {step : value → Except failure other} {inputs : List value}
    {outputs : List other} (ran : inputs.mapM step = .ok outputs) {output : other}
    (member : output ∈ outputs) : ∃ input ∈ inputs, step input = .ok output := by
  have each := mapM_eq_ok_iff.mp ran
  clear ran
  induction each with
  | nil => contradiction
  | @cons first _ _ _ found _ ih =>
      rcases List.mem_cons.mp member with rfl | later
      · exact ⟨first, List.mem_cons_self, found⟩
      · obtain ⟨input, inside, found⟩ := ih later
        exact ⟨input, List.mem_cons_of_mem first inside, found⟩

theorem exists_of_mapM_eq_error {step : value → Except failure other} {inputs : List value}
    {cause : failure} (failed : inputs.mapM step = .error cause) :
    ∃ input ∈ inputs, step input = .error cause := by
  induction inputs with
  | nil => simp [pure, Except.pure] at failed
  | cons first rest ih =>
      rw [List.mapM_cons, bind_eq_error_iff] at failed
      rcases failed with failed | ⟨output, -, failed⟩
      · exact ⟨first, List.mem_cons_self, failed⟩
      · rcases bind_eq_error_iff.mp failed with failed | ⟨outputs, -, failed⟩
        · obtain ⟨input, member, failed⟩ := ih failed
          exact ⟨input, List.mem_cons_of_mem first member, failed⟩
        · contradiction

/-- Where all failures are alike, a list fails as soon as one of its elements does. -/
theorem mapM_eq_error_of_mem {step : value → Except failure other} {inputs : List value}
    {input : value} {cause : failure} (member : input ∈ inputs) (failed : step input = .error cause)
    (alike : ∀ input found, step input = .error found → found = cause) :
    inputs.mapM step = .error cause := by
  induction inputs with
  | nil => contradiction
  | cons first rest ih =>
      rw [List.mapM_cons, bind_eq_error_iff]
      cases front : step first with
      | error found => exact .inl (by rw [alike first found front])
      | ok output =>
          refine .inr ⟨output, rfl, bind_eq_error_iff.mpr (.inl ?_)⟩
          rcases List.mem_cons.mp member with rfl | inside
          · rw [front] at failed
            contradiction
          · exact ih inside

/-- How a computation ends: with a good result, or with a failure that is excused. -/
inductive Ends (computation : Except failure value) (good : value → Prop)
    (excused : failure → Prop) : Prop
  | result {found : value} (ran : computation = .ok found) (fine : good found) :
      Ends computation good excused
  | failure {cause : failure} (ran : computation = .error cause) (excuse : excused cause) :
      Ends computation good excused

section Ends

variable {computation : Except failure value} {good : value → Prop} {better : other → Prop}
  {excused : failure → Prop}

theorem Ends.pure {found : value} (fine : good found) :
    Ends (pure found : Except failure value) good excused :=
  .result rfl fine

theorem Ends.excuse {pardoned : failure → Prop} (ends : Ends computation good excused)
    (more : ∀ cause, excused cause → pardoned cause) : Ends computation good pardoned := by
  cases ends with
  | result ran fine => exact .result ran fine
  | failure ran excuse => exact .failure ran (more _ excuse)

theorem Ends.after {next : value → Except failure other} {found : value}
    (ran : computation = .ok found) (later : Ends (next found) better excused) :
    Ends (computation >>= next) better excused := by
  rw [ran]
  exact later

theorem Ends.bind {next : value → Except failure other} (ends : Ends computation good excused)
    (later : ∀ found, good found → Ends (next found) better excused) :
    Ends (computation >>= next) better excused := by
  cases ends with
  | result ran fine => exact .after ran (later _ fine)
  | failure ran excuse => exact .failure (bind_eq_error_iff.mpr (.inl ran)) excuse

theorem Ends.mapError {rename : failure → other} {pardoned : other → Prop}
    (ends : Ends computation good fun cause => pardoned (rename cause)) :
    Ends (computation.mapError rename) good pardoned := by
  cases ends with
  | result ran fine => exact .result (mapError_eq_ok_iff.mpr ran) fine
  | failure ran excuse => exact .failure (mapError_eq_error_iff.mpr ⟨_, ran, rfl⟩) excuse

end Ends

end Result

namespace Drawing

variable {failure other value result : Type} {source rest : Entropy}

theorem pair_eq_iff {left right : Except failure value} :
    ((left, source) : Id (Except failure value × Entropy)) = (right, rest) ↔
      left = right ∧ source = rest := by
  constructor
  · intro same
    cases same
    exact ⟨rfl, rfl⟩
  · rintro ⟨rfl, rfl⟩
    rfl

theorem bind_eq_ok_iff {first : Drawing failure value} {next : value → Drawing failure result}
    {final : result} :
    (first >>= next : Drawing failure result) source = (.ok final, rest) ↔
      ∃ found middle, first source = (.ok found, middle) ∧ next found middle = (.ok final, rest) := by
  rcases ran : first source with ⟨found, middle⟩
  have unfolded : (first >>= next : Drawing failure result) source =
      ExceptT.bindCont next (first source).1 (first source).2 := rfl
  rw [unfolded, ran]
  cases found with
  | error cause =>
      constructor
      · intro failed
        cases failed
      · rintro ⟨found, middle, failed, -⟩
        cases failed
  | ok found =>
      constructor
      · intro reached
        exact ⟨found, middle, rfl, reached⟩
      · rintro ⟨found, middle, same, reached⟩
        cases same
        exact reached

theorem pure_eq_ok_iff {found final : value} :
    (pure found : Drawing failure value) source = (.ok final, rest) ↔
      found = final ∧ source = rest := by
  have unfolded : (pure found : Drawing failure value) source = (.ok found, source) := rfl
  rw [unfolded, pair_eq_iff, Except.ok.injEq]

theorem ofExcept_eq_ok_iff {computed : Except failure value} {final : value} :
    ofExcept computed source = (.ok final, rest) ↔ computed = .ok final ∧ source = rest := by
  rw [ofExcept, pair_eq_iff]

theorem mapFailure_eq_ok_iff {rename : failure → other} {computation : Drawing failure value}
    {final : value} :
    mapFailure rename computation source = (.ok final, rest) ↔
      computation source = (.ok final, rest) := by
  rcases ran : computation source with ⟨found, middle⟩
  have unfolded : mapFailure rename computation source =
      ((computation source).1.mapError rename, (computation source).2) := rfl
  rw [unfolded, ran, pair_eq_iff, pair_eq_iff, Result.mapError_eq_ok_iff]

theorem length_of_octets {count : Nat} {drawn : Octets}
    (ran : (octets count : Drawing failure Octets) source = (.ok drawn, rest)) :
    drawn.length = count := by
  have unfolded : (octets count : Drawing failure Octets) source =
      (.ok (source.draw count).1, (source.draw count).2) := rfl
  rw [unfolded, pair_eq_iff] at ran
  cases ran.1
  exact source.length_draw count

theorem mapM_cons_eq_ok_iff {step : other → Drawing failure value} {first : other}
    {inputs : List other} {outputs : List value} :
    ((first :: inputs).mapM step : Drawing failure (List value)) source = (.ok outputs, rest) ↔
      ∃ front middle later, step first source = (.ok front, middle) ∧
        (inputs.mapM step : Drawing failure (List value)) middle = (.ok later, rest) ∧
        outputs = front :: later := by
  rw [List.mapM_cons, bind_eq_ok_iff]
  constructor
  · rintro ⟨front, middle, ran, tail⟩
    obtain ⟨later, final, finished, built⟩ := bind_eq_ok_iff.mp tail
    obtain ⟨rfl, rfl⟩ := pure_eq_ok_iff.mp built
    exact ⟨front, middle, later, ran, finished, rfl⟩
  · rintro ⟨front, middle, later, ran, finished, rfl⟩
    refine ⟨front, middle, ran, ?_⟩
    rw [bind_eq_ok_iff]
    exact ⟨later, rest, finished, pure_eq_ok_iff.mpr ⟨rfl, rfl⟩⟩

inductive Ends (computation : Drawing failure value) (source : Entropy) (good : value → Prop)
    (excused : failure → Prop) : Prop
  | result {found : value} {rest : Entropy} (ran : computation source = (.ok found, rest))
      (fine : good found) : Ends computation source good excused
  | failure {cause : failure} {rest : Entropy} (ran : computation source = (.error cause, rest))
      (excuse : excused cause) : Ends computation source good excused

section Ends

variable {good : value → Prop} {better : result → Prop} {excused : failure → Prop}

theorem Ends.pure {found : value} (fine : good found) :
    Ends (pure found : Drawing failure value) source good excused :=
  .result rfl fine

theorem Ends.excuse {computation : Drawing failure value} {pardoned : failure → Prop}
    (ends : computation.Ends source good excused)
    (more : ∀ cause, excused cause → pardoned cause) : computation.Ends source good pardoned := by
  cases ends with
  | result ran fine => exact .result ran fine
  | failure ran excuse => exact .failure ran (more _ excuse)

theorem Ends.after {first : Drawing failure value} {next : value → Drawing failure result}
    {found : value} {middle : Entropy} (ran : first source = (.ok found, middle))
    (later : (next found).Ends middle better excused) :
    (first >>= next).Ends source better excused := by
  have goes : (first >>= next : Drawing failure result) source = next found middle := by
    change ExceptT.bindCont next (first source).1 (first source).2 = _
    rw [ran]
    rfl
  cases later with
  | result finished fine => exact .result (goes.trans finished) fine
  | failure failed excuse => exact .failure (goes.trans failed) excuse

theorem Ends.bind {first : Drawing failure value} {next : value → Drawing failure result}
    (ends : first.Ends source good excused)
    (later : ∀ found middle, good found → (next found).Ends middle better excused) :
    (first >>= next).Ends source better excused := by
  cases ends with
  | result ran fine => exact .after ran (later _ _ fine)
  | @failure cause middle ran excuse =>
      have stops : (first >>= next : Drawing failure result) source = (.error cause, middle) := by
        change ExceptT.bindCont next (first source).1 (first source).2 = _
        rw [ran]
        rfl
      exact .failure stops excuse

theorem Ends.ofExcept {computation : Except failure value}
    (ends : Result.Ends computation good excused) :
    (Drawing.ofExcept computation).Ends source good excused := by
  cases ends with
  | result ran fine => exact .result (ofExcept_eq_ok_iff.mpr ⟨ran, rfl⟩) fine
  | failure ran excuse =>
      rw [ran]
      exact .failure rfl excuse

theorem Ends.mapFailure {rename : failure → other} {computation : Drawing failure value}
    {pardoned : other → Prop}
    (ends : computation.Ends source good fun cause => pardoned (rename cause)) :
    (Drawing.mapFailure rename computation).Ends source good pardoned := by
  cases ends with
  | @result found rest ran fine => exact .result (mapFailure_eq_ok_iff.mpr ran) fine
  | @failure cause rest ran excuse =>
      have renamed : Drawing.mapFailure rename computation source =
          (.error (rename cause), rest) := by
        rw [Drawing.mapFailure, ran]
        rfl
      exact .failure renamed excuse

theorem Ends.mapM {step : other → Drawing failure value} {inputs : List other}
    (each : ∀ input ∈ inputs, ∀ source, (step input).Ends source (fun _ => True) excused)
    (source : Entropy) :
    (inputs.mapM step : Drawing failure (List value)).Ends source (fun _ => True) excused := by
  induction inputs generalizing source with
  | nil => exact .pure trivial
  | cons first rest ih =>
      rw [List.mapM_cons]
      apply Ends.bind (each first List.mem_cons_self source)
      intro front middle _
      apply Ends.bind (ih (fun input member => each input (List.mem_cons_of_mem first member)) middle)
      intro later final _
      exact .pure trivial

end Ends

end Drawing

end Radius
