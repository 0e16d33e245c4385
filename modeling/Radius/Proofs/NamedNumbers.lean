import Radius.Proofs.TableHistory

/-!
The numbers of an enumeration and their names. A number is shown under the first name that it was
given, and a name stands for the last number that was given to it. So what is shown for a number
reads as that number again, unless the name was given another number in between; nothing refuses
such an addition, and it is the only one that sets the two lookups apart.
-/

namespace Radius

namespace DefinitionTable

/-- The two lookups are inverse to each other, except that a number has one of its names only. -/
structure NamesAgree (table : DefinitionTable) : Prop where
  named : ∀ path number name, table.valueName? path number = some name →
    table.numericValue? path name = some number
  numbered : ∀ path name number, table.numericValue? path name = some number →
    ∃ shown, table.valueName? path number = some shown ∧
      table.numericValue? path shown = some number

def Renumbered (table : DefinitionTable) (path : TypePath) (name : String) (number : Int32) :
    Prop :=
  ∃ before other behind, table.values = before ++ ⟨path, name, other⟩ :: behind ∧
    ⟨path, name, number⟩ ∈ before ∧ other ≠ number ∧
    ∀ entry ∈ behind, ¬(entry.path = path ∧ entry.name = name)

/-- The addition gives a number to a name that is shown for another one. -/
def Renumbers (table : DefinitionTable) : Addition → Prop
  | .value path name number =>
      ∃ shownFor, table.valueName? path shownFor = some name ∧ shownFor ≠ number
  | _ => False

/-- None of the additions renumbers a name, where each comes after those in front of it. -/
def Undisturbed (table : DefinitionTable) (additions : List Addition) : Prop :=
  ∀ front addition behind between, additions = front ++ addition :: behind →
    front.foldlM add table = .ok between → ¬between.Renumbers addition

section Lookups

variable {table : DefinitionTable} {path : TypePath} {name : String} {number : Int32}

theorem numericValue?_eq_some_iff : table.numericValue? path name = some number ↔
    ∃ before behind, table.values = before ++ ⟨path, name, number⟩ :: behind ∧
      ∀ entry ∈ behind, ¬(entry.path = path ∧ entry.name = name) := by
  simp only [numericValue?, Option.map_eq_some_iff, List.find?_eq_some_iff_append,
    decide_eq_true_eq, Bool.not_eq_true', decide_eq_false_iff_not]
  constructor
  · rintro ⟨⟨_, _, _⟩, ⟨⟨rfl, rfl⟩, later, earlier, split, free⟩, rfl⟩
    refine ⟨earlier.reverse, later.reverse, ?_, ?_⟩
    · simpa using congrArg List.reverse split
    · intro entry member
      exact free entry (List.mem_reverse.mp member)
  · rintro ⟨before, behind, split, free⟩
    refine ⟨⟨path, name, number⟩,
      ⟨⟨rfl, rfl⟩, behind.reverse, before.reverse, by simp [split], ?_⟩, rfl⟩
    intro entry member
    exact free entry (List.mem_reverse.mp member)

theorem valueName?_eq_some_iff : table.valueName? path number = some name ↔
    ∃ before behind, table.values = before ++ ⟨path, name, number⟩ :: behind ∧
      ∀ entry ∈ before, ¬(entry.path = path ∧ entry.value = number) := by
  simp only [valueName?, Option.map_eq_some_iff, List.find?_eq_some_iff_append,
    decide_eq_true_eq, Bool.not_eq_true', decide_eq_false_iff_not]
  constructor
  · rintro ⟨⟨_, _, _⟩, ⟨⟨rfl, rfl⟩, before, behind, split, free⟩, rfl⟩
    exact ⟨before, behind, split, free⟩
  · rintro ⟨before, behind, split, free⟩
    exact ⟨_, ⟨⟨rfl, rfl⟩, before, behind, split, free⟩, rfl⟩

theorem mem_of_numericValue? (found : table.numericValue? path name = some number) :
    ⟨path, name, number⟩ ∈ table.values := by
  obtain ⟨before, behind, split, -⟩ := numericValue?_eq_some_iff.mp found
  simp [split]

theorem mem_of_valueName? (found : table.valueName? path number = some name) :
    ⟨path, name, number⟩ ∈ table.values := by
  obtain ⟨before, behind, split, -⟩ := valueName?_eq_some_iff.mp found
  simp [split]

theorem exists_numericValue? (member : ⟨path, name, number⟩ ∈ table.values) :
    ∃ last, table.numericValue? path name = some last := by
  refine Option.isSome_iff_exists.mp ?_
  rw [numericValue?, Option.isSome_map, List.find?_isSome]
  exact ⟨_, List.mem_reverse.mpr member, by simp⟩

theorem exists_valueName? (member : ⟨path, name, number⟩ ∈ table.values) :
    ∃ shown, table.valueName? path number = some shown := by
  refine Option.isSome_iff_exists.mp ?_
  rw [valueName?, Option.isSome_map, List.find?_isSome]
  exact ⟨_, member, by simp⟩

theorem numericValue?_eq_iff_of_mem (member : ⟨path, name, number⟩ ∈ table.values) :
    table.numericValue? path name = some number ↔ ¬table.Renumbered path name number := by
  obtain ⟨last, found⟩ := exists_numericValue? member
  constructor
  · rintro here ⟨before, other, behind, split, -, different, free⟩
    have now := numericValue?_eq_some_iff.mpr ⟨before, behind, split, free⟩
    rw [here] at now
    exact different (Option.some.inj now).symm
  · intro kept
    by_cases same : last = number
    · rw [found, same]
    · -- The last entry of the name has another number, so the given one stands in front of it.
      obtain ⟨before, behind, split, free⟩ := numericValue?_eq_some_iff.mp found
      refine absurd ⟨before, last, behind, split, ?_, same, free⟩ kept
      rw [split] at member
      rcases List.mem_append.mp member with earlier | here
      · exact earlier
      · rcases List.mem_cons.mp here with equal | later
        · exact absurd (congrArg NamedValue.value equal).symm same
        · exact absurd ⟨rfl, rfl⟩ (free _ later)

theorem NamesAgree.of_named (named : ∀ path number name,
    table.valueName? path number = some name → table.numericValue? path name = some number) :
    table.NamesAgree where
  named := named
  numbered path name number found := by
    obtain ⟨shown, first⟩ := exists_valueName? (mem_of_numericValue? found)
    exact ⟨shown, first, named path number shown first⟩

end Lookups

section Steps

variable {table extended : DefinitionTable}

theorem numericValue?_insertValue (entry : NamedValue) (path : TypePath) (name : String) :
    (table.insertValue entry).numericValue? path name =
      if entry.path = path ∧ entry.name = name then some entry.value
      else table.numericValue? path name := by
  by_cases here : entry.path = path ∧ entry.name = name <;>
    simp [numericValue?, insertValue, here]

theorem valueName?_insertValue (entry : NamedValue) (path : TypePath) (number : Int32) :
    (table.insertValue entry).valueName? path number =
      (table.valueName? path number).or
        (if entry.path = path ∧ entry.value = number then some entry.name else none) := by
  by_cases here : entry.path = path ∧ entry.value = number <;>
    simp [valueName?, insertValue, List.find?_append, here]

theorem namesAgree_insertValue_iff (agrees : table.NamesAgree) (entry : NamedValue) :
    (table.insertValue entry).NamesAgree ↔
      ∀ number, table.valueName? entry.path number = some entry.name → number = entry.value := by
  constructor
  · intro agreed number shown
    have stays : (table.insertValue entry).valueName? entry.path number = some entry.name := by
      rw [valueName?_insertValue, shown, Option.some_or]
    have now := agreed.named entry.path number entry.name stays
    rw [numericValue?_insertValue, if_pos ⟨rfl, rfl⟩] at now
    exact (Option.some.inj now).symm
  · intro alone
    refine NamesAgree.of_named fun path number name shown => ?_
    rw [valueName?_insertValue, Option.or_eq_some_iff] at shown
    rw [numericValue?_insertValue]
    by_cases here : entry.path = path ∧ entry.name = name
    · obtain ⟨rfl, rfl⟩ := here
      rw [if_pos ⟨rfl, rfl⟩]
      rcases shown with old | ⟨-, new⟩
      · rw [alone number old]
      · split at new
        · rename_i fits
          rw [fits.2]
        · contradiction
    · rw [if_neg here]
      rcases shown with old | ⟨-, new⟩
      · exact agrees.named path number name old
      · split at new
        · rename_i fits
          exact absurd ⟨fits.1, Option.some.inj new⟩ here
        · contradiction

/-- Of all additions only the renumbering of a name that is shown breaks the agreement. -/
theorem Adds.namesAgree_iff {addition : Addition} (adds : table.Adds addition extended)
    (agrees : table.NamesAgree) : extended.NamesAgree ↔ ¬table.Renumbers addition := by
  cases adds with
  | attr => exact ⟨fun _ => id, fun _ => ⟨agrees.named, agrees.numbered⟩⟩
  | tlv => exact ⟨fun _ => id, fun _ => ⟨agrees.named, agrees.numbered⟩⟩
  | packet => exact ⟨fun _ => id, fun _ => ⟨agrees.named, agrees.numbered⟩⟩
  | value =>
      rw [namesAgree_insertValue_iff agrees, Renumbers]
      constructor
      · rintro alone ⟨shownFor, shown, different⟩
        exact different (alone shownFor shown)
      · intro free number shown
        by_contra different
        exact free ⟨number, shown, different⟩

theorem Undisturbed.further {addition : Addition} {additions : List Addition}
    (undisturbed : table.Undisturbed (addition :: additions))
    (added : table.add addition = .ok extended) : extended.Undisturbed additions := by
  intro front next behind between split reached
  refine undisturbed (addition :: front) next behind between (by rw [split, List.cons_append]) ?_
  rw [List.foldlM_cons, added]
  exact reached

theorem namesAgree_of_additions {additions : List Addition} (agrees : table.NamesAgree)
    (added : additions.foldlM add table = .ok extended)
    (undisturbed : table.Undisturbed additions) : extended.NamesAgree := by
  induction additions generalizing table with
  | nil =>
      cases added
      exact agrees
  | cons first rest ih =>
      rw [List.foldlM_cons] at added
      obtain ⟨further, begun, added⟩ := Result.bind_eq_ok_iff.mp added
      have next := ((adds_of_add first begun).namesAgree_iff agrees).mpr
        (undisturbed [] first rest table rfl rfl)
      exact ih next added (undisturbed.further begun)

end Steps

section Bases

theorem namesAgree_standard : DefinitionTable.standard.NamesAgree := by
  have numbered : ∀ entry ∈ standard.values,
      standard.numericValue? entry.path entry.name = some entry.value := by
    decide +kernel
  refine NamesAgree.of_named fun path number name shown => ?_
  exact numbered _ (mem_of_valueName? shown)

theorem namesAgree_base (base : Base) : base.table.NamesAgree := by
  cases base with
  | empty => exact NamesAgree.of_named fun path number name shown => by contradiction
  | standard => exact namesAgree_standard

end Bases

/-- What is shown for a number reads as that number, unless the name was renumbered; a number that a
name stands for is shown under a name of which the same is true. The addition that renumbers a name
is the one that breaks the agreement, which a dictionary has as long as there was none. -/
theorem agree_unless_renumbered (table : DefinitionTable) :
    (∀ path number name, table.valueName? path number = some name →
      (table.numericValue? path name = some number ↔ ¬table.Renumbered path name number)) ∧
    (∀ path name number, table.numericValue? path name = some number →
      ∃ shown, table.valueName? path number = some shown ∧
        (table.numericValue? path shown = some number ↔ ¬table.Renumbered path shown number)) ∧
    (∀ addition extended, table.NamesAgree → table.add addition = .ok extended →
      (extended.NamesAgree ↔ ¬table.Renumbers addition)) ∧
    ∀ (base : Base) additions, additions.foldlM add base.table = .ok table →
      base.table.Undisturbed additions → table.NamesAgree := by
  refine ⟨?_, ?_, ?_, ?_⟩
  · intro path number name shown
    exact numericValue?_eq_iff_of_mem (mem_of_valueName? shown)
  · intro path name number found
    obtain ⟨shown, first⟩ := exists_valueName? (mem_of_numericValue? found)
    exact ⟨shown, first, numericValue?_eq_iff_of_mem (mem_of_valueName? first)⟩
  · intro addition extended agrees added
    exact (adds_of_add addition added).namesAgree_iff agrees
  · intro base additions added undisturbed
    exact namesAgree_of_additions (namesAgree_base base) added undisturbed

def withShellUser : DefinitionTable :=
  standard.insertValue ⟨.topLevel 6, "Shell-User", 1⟩

def withMovedLogin : DefinitionTable :=
  withShellUser.insertValue ⟨.topLevel 6, "Login-User", 100⟩

theorem add_withShellUser :
    standard.add (.value (.topLevel 6) "Shell-User" 1) = .ok withShellUser := by
  rw [add, addValue, if_pos (by decide +kernel)]
  rfl

theorem add_withMovedLogin :
    withShellUser.add (.value (.topLevel 6) "Login-User" 100) = .ok withMovedLogin := by
  rw [add, addValue, if_pos (by decide +kernel)]
  rfl

theorem undisturbed_withShellUser :
    standard.Undisturbed [.value (.topLevel 6) "Shell-User" 1] := by
  intro front addition behind between split reached
  cases front with
  | nil =>
      cases split
      cases reached
      rintro ⟨shownFor, shown, -⟩
      have unnamed : standard.numericValue? (.topLevel 6) "Shell-User" = none := by
        decide +kernel
      rw [namesAgree_standard.named _ _ _ shown] at unnamed
      contradiction
  | cons first rest => simp at split

theorem agree_unless_renumbered_withMovedLogin :
    withMovedLogin.valueName? (.topLevel 6) 1 = some "Login-User" ∧
      (withMovedLogin.numericValue? (.topLevel 6) "Login-User" = some 1 ↔
        ¬withMovedLogin.Renumbered (.topLevel 6) "Login-User" 1) ∧
      withMovedLogin.numericValue? (.topLevel 6) "Login-User" = some 100 ∧
      (∃ shown, withMovedLogin.valueName? (.topLevel 6) 100 = some shown ∧
        (withMovedLogin.numericValue? (.topLevel 6) shown = some 100 ↔
          ¬withMovedLogin.Renumbered (.topLevel 6) shown 100)) ∧
      [.value (.topLevel 6) "Shell-User" 1].foldlM add standard = .ok withShellUser ∧
      standard.Undisturbed [.value (.topLevel 6) "Shell-User" 1] ∧
      withShellUser.NamesAgree ∧
      withShellUser.add (.value (.topLevel 6) "Login-User" 100) = .ok withMovedLogin ∧
      (withMovedLogin.NamesAgree ↔
        ¬withShellUser.Renumbers (.value (.topLevel 6) "Login-User" 100)) := by
  have shown : withMovedLogin.valueName? (.topLevel 6) 1 = some "Login-User" := by
    decide +kernel
  have moved : withMovedLogin.numericValue? (.topLevel 6) "Login-User" = some 100 := by
    decide +kernel
  have here := agree_unless_renumbered withMovedLogin
  have before := agree_unless_renumbered withShellUser
  have added : [.value (.topLevel 6) "Shell-User" 1].foldlM add standard = .ok withShellUser := by
    rw [List.foldlM_cons, add_withShellUser]
    rfl
  have agrees := before.2.2.2 .standard _ added undisturbed_withShellUser
  exact ⟨shown, here.1 _ _ _ shown, moved, here.2.1 _ _ _ moved, added, undisturbed_withShellUser,
    agrees, add_withMovedLogin, before.2.2.1 _ _ agrees add_withMovedLogin⟩

/-- The name that is shown for the first service type stands for another number, although a name
that still stands for the first one is at hand. -/
theorem disagree_withMovedLogin :
    withMovedLogin.Reachable ∧
      withMovedLogin.valueName? (.topLevel 6) 1 = some "Login-User" ∧
      withMovedLogin.numericValue? (.topLevel 6) "Login-User" = some 100 ∧
      withMovedLogin.numericValue? (.topLevel 6) "Shell-User" = some 1 ∧
      ¬withMovedLogin.NamesAgree := by
  have shown : withMovedLogin.valueName? (.topLevel 6) 1 = some "Login-User" := by
    decide +kernel
  have moved : withMovedLogin.numericValue? (.topLevel 6) "Login-User" = some 100 := by
    decide +kernel
  refine ⟨.addValue (.addValue .standard add_withShellUser) add_withMovedLogin, shown, moved,
    by decide +kernel, fun agrees => ?_⟩
  have back := agrees.named _ _ _ shown
  rw [moved] at back
  contradiction

end DefinitionTable

end Radius
