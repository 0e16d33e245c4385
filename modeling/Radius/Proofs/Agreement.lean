import Radius.Proofs.SentLength

/-!
Two runs side by side. Computations agree if they end in related results or in the same failure; the
relation is the same octets where no filter hides anything, and as many octets elsewhere. Whatever
lowering does with a value looks at its type and its length only, so attributes that are related
stay related when they are enclosed, and become related records: the secret decides neither whether
attributes can be sent nor how many octets they are sent in.
-/

namespace Radius

namespace Result

variable {failure other left right leftLater rightLater : Type} {related : left → right → Prop}
  {further : leftLater → rightLater → Prop}

inductive Agree (related : left → right → Prop) :
    Except failure left → Except failure right → Prop
  | result {first : left} {second : right} (alike : related first second) :
      Agree related (.ok first) (.ok second)
  | failure (cause : failure) : Agree related (.error cause) (.error cause)

theorem Agree.bind {first : Except failure left} {second : Except failure right}
    {next : left → Except failure leftLater} {follow : right → Except failure rightLater}
    (agree : Agree related first second)
    (later : ∀ one another, related one another → Agree further (next one) (follow another)) :
    Agree further (first >>= next) (second >>= follow) := by
  cases agree with
  | result alike => exact later _ _ alike
  | failure cause => exact .failure cause

theorem Agree.after {result : Type} (first : Except failure result)
    {next : result → Except failure leftLater} {follow : result → Except failure rightLater}
    (later : ∀ found, Agree further (next found) (follow found)) :
    Agree further (first >>= next) (first >>= follow) := by
  cases first with
  | error cause => exact .failure cause
  | ok found => exact later found

theorem Agree.mapError {first : Except failure left} {second : Except failure right}
    (rename : failure → other) (agree : Agree related first second) :
    Agree related (first.mapError rename) (second.mapError rename) := by
  cases agree with
  | result alike => exact .result alike
  | failure cause => exact .failure (rename cause)

theorem Agree.self {reflexive : left → left → Prop} (computation : Except failure left)
    (each : ∀ found, reflexive found found) : Agree reflexive computation computation := by
  cases computation with
  | error cause => exact .failure cause
  | ok found => exact .result (each found)

theorem Agree.imp {weaker : left → right → Prop} {first : Except failure left}
    {second : Except failure right} (agree : Agree related first second)
    (follows : ∀ one another, related one another → weaker one another) :
    Agree weaker first second := by
  cases agree with
  | result alike => exact .result (follows _ _ alike)
  | failure cause => exact .failure cause

theorem Agree.relate {closer : left → right → Prop} {first : Except failure left}
    {second : Except failure right} (agree : Agree related first second)
    (close : ∀ one another, first = .ok one → second = .ok another → closer one another) :
    Agree closer first second := by
  cases agree with
  | result alike => exact .result (close _ _ rfl rfl)
  | failure cause => exact .failure cause

theorem Agree.mapM {one another : Type} {before : one → another → Prop}
    {step : one → Except failure left} {again : another → Except failure right}
    {inputs : List one} {others : List another} (alike : List.Forall₂ before inputs others)
    (each : ∀ input other, before input other → Agree related (step input) (again other)) :
    Agree (List.Forall₂ related) (inputs.mapM step) (others.mapM again) := by
  induction alike with
  | nil => exact .result .nil
  | cons front _ ih =>
      rw [List.mapM_cons, List.mapM_cons]
      refine Agree.bind (each _ _ front) fun first second head => ?_
      refine Agree.bind ih fun later rest tail => ?_
      exact .result (.cons head tail)

end Result

namespace Drawing

variable {failure other left right leftLater rightLater : Type} {related : left → right → Prop}
  {further : leftLater → rightLater → Prop}

/-- Computations that end alike whatever they draw. The sources of the two are apart: what one side
draws as salt, or whether it draws at all, tells nothing about the other. -/
def Agree (related : left → right → Prop) (first : Drawing failure left)
    (second : Drawing failure right) : Prop :=
  ∀ source other, Result.Agree related (first source).1 (second other).1

theorem Agree.pure {one : left} {another : right} (alike : related one another) :
    Agree related (pure one : Drawing failure left) (pure another) :=
  fun _ _ => .result alike

theorem Agree.throw (cause : failure) :
    Agree related (throw cause : Drawing failure left) (throw cause) :=
  fun _ _ => .failure cause

theorem Agree.bind {first : Drawing failure left} {second : Drawing failure right}
    {next : left → Drawing failure leftLater} {follow : right → Drawing failure rightLater}
    (agree : Agree related first second)
    (later : ∀ one another, related one another → Agree further (next one) (follow another)) :
    Agree further (first >>= next) (second >>= follow) := by
  intro source other
  have ends := agree source other
  change Result.Agree further (ExceptT.bindCont next (first source).1 (first source).2).1
    (ExceptT.bindCont follow (second other).1 (second other).2).1
  cases one : first source with
  | mk found rest =>
      cases another : second other with
      | mk again remains =>
          rw [one, another] at ends
          cases ends with
          | result alike => exact later _ _ alike rest remains
          | failure cause => exact .failure cause

theorem Agree.ofExcept {first : Except failure left} {second : Except failure right}
    (agree : Result.Agree related first second) :
    Agree related (Drawing.ofExcept first) (Drawing.ofExcept second) :=
  fun _ _ => agree

theorem Agree.mapFailure {first : Drawing failure left} {second : Drawing failure right}
    (rename : failure → other) (agree : Agree related first second) :
    Agree related (Drawing.mapFailure rename first) (Drawing.mapFailure rename second) :=
  fun source other => (agree source other).mapError rename

theorem Agree.mapM {input : Type} {step : input → Drawing failure left}
    {again : input → Drawing failure right} (inputs : List input)
    (each : ∀ one, Agree related (step one) (again one)) :
    Agree (List.Forall₂ related) (inputs.mapM step) (inputs.mapM again) := by
  induction inputs with
  | nil => exact .pure .nil
  | cons front rest ih =>
      rw [List.mapM_cons, List.mapM_cons]
      refine Agree.bind (each front) fun first second head => ?_
      refine Agree.bind ih fun later remains tail => ?_
      exact .pure (.cons head tail)

theorem octets_agree (count : Nat) :
    Agree (fun drawn again => drawn.length = again.length)
      (Drawing.octets count : Drawing failure Octets) (Drawing.octets count) := by
  intro source other
  exact .result ((Entropy.length_draw count source).trans (Entropy.length_draw count other).symm)

end Drawing

/-- As many octets, and the same ones if they are shown. -/
structure Octets.Like (shown : Prop) (left right : Octets) : Prop where
  length_eq : left.length = right.length
  same : shown → left = right

namespace Octets

variable {shown : Prop} {left right front back : Octets}

theorem Like.refl (octets : Octets) : Like shown octets octets := ⟨rfl, fun _ => rfl⟩

theorem Like.append (head : Like shown left right) (tail : Like shown front back) :
    Like shown (left ++ front) (right ++ back) := by
  refine ⟨?_, fun seen => by rw [head.same seen, tail.same seen]⟩
  rw [List.length_append, List.length_append, head.length_eq, tail.length_eq]

theorem Like.take (like : Like shown left right) (count : Nat) :
    Like shown (left.take count) (right.take count) := by
  refine ⟨?_, fun seen => by rw [like.same seen]⟩
  rw [List.length_take, List.length_take, like.length_eq]

theorem Like.drop (like : Like shown left right) (count : Nat) :
    Like shown (left.drop count) (right.drop count) := by
  refine ⟨?_, fun seen => by rw [like.same seen]⟩
  rw [List.length_drop, List.length_drop, like.length_eq]

theorem Like.chunks (size : Nat) (positive : 0 < size) (like : Like shown left right) :
    List.Forall₂ (Like shown) (Octets.chunks size positive left)
      (Octets.chunks size positive right) := by
  fun_induction Octets.chunks size positive left generalizing right with
  | case1 =>
      rw [List.length_eq_zero_iff.mp like.length_eq.symm, Octets.chunks]
      exact .nil
  | case2 first rest ih =>
      cases right with
      | nil => exact absurd like.length_eq (by simp)
      | cons other others =>
          rw [Octets.chunks]
          exact .cons (like.take size) (ih (like.drop size))

end Octets

inductive Container.Like (shown : Prop) : Container → Container → Prop
  | extended (extendedType : UInt8) {payload other : Octets} (like : payload.Like shown other) :
      Like shown (.extended extendedType payload) (.extended extendedType other)
  | longExtended (extendedType : UInt8) (more truncated : Bool) {payload other : Octets}
      (like : payload.Like shown other) :
      Like shown (.longExtended extendedType more truncated payload)
        (.longExtended extendedType more truncated other)
  | vsa (vendor : UInt32) (vendorType : UInt8) {payload other : Octets}
      (like : payload.Like shown other) :
      Like shown (.vsa vendor vendorType payload) (.vsa vendor vendorType other)
  | evs (vendor : UInt32) (vendorType : UInt8) {payload other : Octets}
      (like : payload.Like shown other) :
      Like shown (.evs vendor vendorType payload) (.evs vendor vendorType other)

inductive Value.Like (shown : Prop) : Value → Value → Prop
  | same (value : Value) : Like shown value value
  | container {left right : Container} (like : left.Like shown right) :
      Like shown (.container left) (.container right)

section Values

variable {shown : Prop}

theorem Container.Like.octets {left right : Container} (like : left.Like shown right) :
    left.octets.Like shown right.octets := by
  have front (head : Octets) {payload other : Octets} (like : payload.Like shown other) :
      (head ++ payload).Like shown (head ++ other) := (Octets.Like.refl head).append like
  cases like with
  | extended extendedType like => exact front [extendedType] like
  | longExtended extendedType more truncated like =>
      exact front [extendedType, flags more truncated] like
  | vsa vendor vendorType like =>
      rw [Container.octets, Container.octets, like.length_eq]
      exact (Octets.Like.refl _).append (front [vendorType, _] like)
  | evs vendor vendorType like =>
      exact (Octets.Like.refl _).append (front [vendorType] like)

theorem Container.Like.encodedLength_eq {left right : Container} (like : left.Like shown right) :
    left.encodedLength = right.encodedLength := by
  rw [← left.length_octets, ← right.length_octets, like.octets.length_eq]

namespace Value

variable {left right : Value}

theorem Like.dataType_eq (like : left.Like shown right) : left.dataType = right.dataType := by
  cases like with
  | same value => rfl
  | container like => cases like <;> rfl

theorem Like.tagLength_eq (like : left.Like shown right) : left.tagLength = right.tagLength := by
  cases like with
  | same value => rfl
  | container like => rfl

theorem Like.encodedLength_eq (like : left.Like shown right) :
    left.encodedLength = right.encodedLength := by
  cases like with
  | same value => rfl
  | container like => exact like.encodedLength_eq

theorem Like.octets (like : left.Like shown right) : left.octets.Like shown right.octets := by
  cases like with
  | same value => exact .refl _
  | container like => exact like.octets

theorem Like.encodeAs_agree (like : left.Like shown right) (type : DataType) :
    Result.Agree (Octets.Like shown) (left.encodeAs type) (right.encodeAs type) := by
  unfold encodeAs
  rw [like.dataType_eq]
  split
  · exact .result like.octets
  · exact .failure _

end Value

end Values

theorem Filter.encode_agree (filter : Filter) (left right : Exchange) {plain other : Octets}
    (alike : plain.length = other.length) :
    Drawing.Agree (fun hidden again => hidden.length = again.length)
      (filter.encode left plain) (filter.encode right other) := by
  cases filter with
  | userPassword =>
      apply Drawing.Agree.ofExcept
      unfold Password.hideUser
      rw [alike]
      split
      · exact .failure _
      · apply Result.Agree.result
        rw [KeyStream.length_encrypt, KeyStream.length_encrypt, Password.length_pad,
          Password.length_pad, alike]
  | tunnelPassword =>
      unfold encode
      dsimp only
      rw [alike]
      split
      · exact .throw _
      · apply Drawing.Agree.bind (Drawing.octets_agree _)
        intro salt again salted
        apply Drawing.Agree.pure
        rw [Password.length_hideTunnel, Password.length_hideTunnel, Password.length_markSalt,
          Password.length_markSalt, salted, alike]

theorem AttributeDefinition.encodeValue_agree (definition : AttributeDefinition) {shown : Prop}
    (clear : shown → definition.filter = none) (left right : Exchange) {value other : Value}
    (like : value.Like shown other) :
    Drawing.Agree (Octets.Like shown) (definition.encodeValue left value)
      (definition.encodeValue right other) := by
  unfold encodeValue
  apply Drawing.Agree.bind (.ofExcept (like.encodeAs_agree definition.dataType))
  intro octets again spelled
  rw [like.tagLength_eq]
  cases hides : definition.filter with
  | none => exact .pure spelled
  | some filter =>
      apply Drawing.Agree.bind (filter.encode_agree left right (spelled.drop _).length_eq)
      intro hidden rehidden alike
      have covered : hidden.Like shown rehidden := by
        refine ⟨alike, fun seen => ?_⟩
        rw [clear seen] at hides
        contradiction
      exact .pure ((spelled.take _).append covered)

/-- No definition at or below the top-level type has a filter. -/
def Dictionary.Unfiltered (dictionary : Dictionary) (type : UInt8) : Prop :=
  ∀ path definition, dictionary.attribute? path = some definition → path.head = type →
    definition.filter = none

/-- Attributes that differ at most in a payload that a filter has hidden. -/
structure Attribute.Like (dictionary : Dictionary) (left right : Attribute) : Prop where
  path_eq : left.path = right.path
  truncated_eq : left.truncated = right.truncated
  record?_eq : left.record? = right.record?
  value_like : Option.Rel (Value.Like (dictionary.Unfiltered left.path.head)) left.value?
    right.value?

/-- Records that differ at most in octets that a filter has hidden. -/
structure Record.Like (dictionary : Dictionary) (left right : Record) : Prop where
  type_eq : left.type = right.type
  value_like : left.value.Like (dictionary.Unfiltered left.type) right.value

section Attributes

variable {dictionary : Dictionary} {definition parent : AttributeDefinition} {shown : Prop}
  {left right : Value} {payload other : Octets}

theorem Attribute.Like.refl (dictionary : Dictionary) (entry : Attribute) :
    entry.Like dictionary entry := by
  refine ⟨rfl, rfl, rfl, ?_⟩
  cases entry.value? with
  | none => exact .none
  | some value => exact .some (.same value)

theorem Record.Like.refl (dictionary : Dictionary) (record : Record) :
    record.Like dictionary record := ⟨rfl, .refl _⟩

theorem Record.make_agree (type : UInt8)
    (like : payload.Like (dictionary.Unfiltered type) other) :
    Result.Agree (Record.Like dictionary) (Record.make type payload) (Record.make type other) := by
  unfold make
  split
  · rename_i fits
    rw [dif_pos (like.length_eq ▸ fits)]
    exact .result ⟨rfl, like⟩
  · rename_i long
    rw [dif_neg (like.length_eq ▸ long), like.length_eq]
    exact .failure _

theorem Attribute.checkLength_eq (like : left.Like shown right) (max : Nat) :
    checkLength left max = checkLength right max := by
  rw [checkLength, checkLength, like.encodedLength_eq]

theorem Attribute.makeStandard_agree (type : UInt8) (like : left.Like shown right) :
    Result.Agree (fun _ _ => True) (makeStandard type left) (makeStandard type right) := by
  unfold makeStandard
  rw [like.dataType_eq]
  split
  · exact .failure _
  · exact .result trivial
  · rw [checkLength_eq like]
    exact .after _ fun _ => .result trivial

namespace AttributeDefinition

theorem builds_alike (definition : AttributeDefinition) (like : left.Like shown right) :
    Result.Agree (fun _ _ => True) (definition.make left) (definition.make right) := by
  cases like with
  | same value => exact .self _ fun _ => trivial
  | @container left right like =>
      have alike : Value.Like shown (.container left) (.container right) := .container like
      -- one case for each carrier: all of them check the type, then at most the length
      unfold make
      rw [alike.dataType_eq]
      split
      · exact .failure _
      · dsimp only
        split
        · split
          · exact .failure _
          · exact Attribute.makeStandard_agree _ alike
        · split
          · exact .failure _
          · exact Attribute.makeStandard_agree _ alike
        · exact .failure _
        · split
          · exact .failure _
          · apply Result.Agree.after
            intro last
            unfold Attribute.makeExtended
            rw [Attribute.checkLength_eq alike]
            exact .after _ fun _ => .result trivial
        · split
          · exact .failure _
          · exact .after _ fun last => .result trivial
        · split
          · exact .failure _
          · apply Result.Agree.after
            intro last
            unfold Attribute.makeVendorSpecific
            apply Result.Agree.after
            intro _
            rw [Attribute.checkLength_eq alike]
            split
            · exact .after _ fun _ => .result trivial
            · exact .result trivial

theorem make_agree (definition : AttributeDefinition)
    (like : left.Like (dictionary.Unfiltered definition.path.head) right) :
    Result.Agree (Attribute.Like dictionary) (definition.make left) (definition.make right) := by
  have unmarked {value : Value} {fresh : Attribute} (made : definition.make value = .ok fresh) :
      fresh.truncated = false ∧ fresh.record? = none := by
    cases definition.shapes_of_make made <;> exact ⟨rfl, rfl⟩
  apply (definition.builds_alike like).relate
  intro first second made remade
  have path := path_of_make made
  refine ⟨path.trans (path_of_make remade).symm, ?_, ?_, ?_⟩
  · rw [(unmarked made).1, (unmarked remade).1]
  · rw [(unmarked made).2, (unmarked remade).2]
  · rw [value_of_make made, value_of_make remade, path]
    exact .some like

end AttributeDefinition

theorem Container.checkLength_eq (like : payload.Like shown other) (max : Nat) :
    checkLength payload max = checkLength other max := by
  rw [checkLength, checkLength, like.length_eq]

namespace Lowering

theorem container_agree (definition parent : AttributeDefinition) (truncated : Bool) (last : UInt8)
    (like : payload.Like shown other) :
    Result.Agree (Container.Like shown) (container definition parent truncated last payload)
      (container definition parent truncated last other) := by
  unfold container
  split
  · unfold Container.makeExtended
    rw [Container.checkLength_eq like]
    exact .after _ fun _ => .result (.extended last like)
  · exact .result (.longExtended last false truncated like)
  · split
    · unfold Container.makeVsa
      rw [Container.checkLength_eq like]
      exact .after _ fun _ => .after _ fun _ => .result (.vsa _ last like)
    · exact .after _ fun _ => .result (.evs _ last like)
    · exact .failure _

theorem head_of_ancestor? {path above : TypePath} {levels : Nat}
    (higher : path.ancestor? levels = some above) : above.head = path.head := by
  obtain ⟨segments, -, joined⟩ := TypePath.ancestor?_eq_some_iff.mp higher
  rw [← joined]
  rfl

theorem enclose_agree (definition : AttributeDefinition) (truncated : Bool)
    (like : payload.Like (dictionary.Unfiltered definition.path.head) other) :
    Result.Agree (Attribute.Like dictionary) (enclose dictionary definition truncated payload)
      (enclose dictionary definition truncated other) := by
  unfold enclose
  split
  · exact .failure _
  · rename_i above higher
    split
    · exact .failure _
    · rename_i parent known
      apply Result.Agree.mapError
      apply Result.Agree.after
      intro last
      apply (container_agree definition parent truncated last like).bind
      intro first second alike
      apply parent.make_agree
      rw [dictionary.path_of_attribute? known, head_of_ancestor? higher]
      exact .container alike

theorem split_like (like : payload.Like shown other) :
    List.Forall₂ (Octets.Like shown) (split payload) (split other) := by
  unfold split
  cases payload with
  | nil =>
      rw [List.length_eq_zero_iff.mp like.length_eq.symm]
      exact .cons (.refl []) .nil
  | cons first rest =>
      cases other with
      | nil => exact absurd like.length_eq (by simp)
      | cons second later => exact like.chunks _ _

theorem pieces_like (extendedType : UInt8) (truncated : Bool) {payloads others : List Octets}
    (like : List.Forall₂ (Octets.Like shown) payloads others) :
    List.Forall₂ (Container.Like shown) (pieces extendedType truncated payloads)
      (pieces extendedType truncated others) := by
  induction like with
  | nil => exact .nil
  | cons front later ih =>
      cases later with
      | nil => exact .cons (.longExtended extendedType false truncated front) .nil
      | cons second rest => exact .cons (.longExtended extendedType true false front) ih

theorem fragmentedRecords_agree (type : UInt8)
    (like : left.Like (dictionary.Unfiltered type) right) :
    Result.Agree (List.Forall₂ (Record.Like dictionary)) (fragmentedRecords type left)
      (fragmentedRecords type right) := by
  cases like with
  | same value => exact .self _ fun _ => List.forall₂_same.mpr fun record _ => .refl _ record
  | container like =>
      cases like with
      | longExtended extendedType more truncated like =>
          apply Result.Agree.mapError
          apply Result.Agree.mapM (pieces_like extendedType truncated (split_like like))
          intro first second alike
          exact Record.make_agree type alike.octets
      | _ => exact .failure _

theorem concatRecords_agree (type : UInt8)
    (like : left.Like (dictionary.Unfiltered type) right) :
    Result.Agree (List.Forall₂ (Record.Like dictionary)) (concatRecords type left)
      (concatRecords type right) := by
  cases like with
  | same value => exact .self _ fun _ => List.forall₂_same.mpr fun record _ => .refl _ record
  | container like => cases like <;> exact .failure _

inductive Lowered.Like (dictionary : Dictionary) {depth other : Nat} :
    Lowered depth → Lowered other → Prop
  | records {records others : List Record}
      (like : List.Forall₂ (Record.Like dictionary) records others) :
      Lowered.Like dictionary (.records records) (.records others)
  | enclosed {outer another : Attribute} {shallower : outer.path.depth < depth}
      {higher : another.path.depth < other} (like : outer.Like dictionary another) :
      Lowered.Like dictionary (.enclosed outer shallower) (.enclosed another higher)

variable {entry another : Attribute}

theorem enclosing_agree (known : dictionary.attribute? entry.path = some definition)
    (again : dictionary.attribute? another.path = some definition)
    (marks : entry.truncated = another.truncated)
    (like : payload.Like (dictionary.Unfiltered definition.path.head) other) :
    Drawing.Agree (Lowered.Like dictionary) (enclosing known payload) (enclosing again other) := by
  have built := enclose_agree definition entry.truncated like
  cases first : enclose dictionary definition entry.truncated payload with
  | error cause =>
      cases second : enclose dictionary definition entry.truncated other with
      | error cause =>
          rw [first, second] at built
          cases built
          rw [enclosing_of_error known first, enclosing_of_error again (marks ▸ second)]
          exact .throw _
      | ok outer =>
          rw [first, second] at built
          cases built
  | ok outer =>
      cases second : enclose dictionary definition entry.truncated other with
      | error cause =>
          rw [first, second] at built
          cases built
      | ok outside =>
          rw [first, second] at built
          cases built with
          | result alike =>
              obtain ⟨shallower, steps⟩ := enclosing_of_ok known first
              obtain ⟨higher, resteps⟩ := enclosing_of_ok again (marks ▸ second)
              rw [steps, resteps]
              exact .pure (.enclosed alike)

theorem known_agree {value rival : Value} (left right : Exchange)
    (holds : entry.value? = some value) (held : another.value? = some rival)
    (known : dictionary.attribute? entry.path = some definition)
    (again : dictionary.attribute? another.path = some definition)
    (marks : entry.truncated = another.truncated)
    (alike : value.Like (dictionary.Unfiltered definition.path.head) rival) :
    Drawing.Agree (Lowered.Like dictionary) (lowerOnce left dictionary entry)
      (lowerOnce right dictionary another) := by
  have clear : dictionary.Unfiltered definition.path.head → definition.filter = none :=
    fun seen => seen _ _ known (by rw [dictionary.path_of_attribute? known])
  have encoded := Drawing.Agree.mapFailure PacketError.invalidAttribute
    (definition.encodeValue_agree clear left right alike)
  rw [lowerOnce_known holds known, lowerOnce_known held again]
  cases definition.carrier with
  | standard =>
      apply encoded.bind
      intro octets others spelled
      apply Drawing.Agree.bind
        (.ofExcept ((Record.make_agree definition.path.head spelled).mapError _))
      intro record other same
      exact .pure (.records (.cons same .nil))
  | fragmented =>
      apply Drawing.Agree.bind (.ofExcept (fragmentedRecords_agree _ alike))
      intro records others same
      exact .pure (.records same)
  | concat =>
      apply Drawing.Agree.bind (.ofExcept (concatRecords_agree _ alike))
      intro records others same
      exact .pure (.records same)
  -- the carriers that enclose the octets differ in the container only, see `enclose_agree`
  | _ =>
      apply encoded.bind
      intro payload others spelled
      exact enclosing_agree known again marks spelled

theorem lowerOnce_agree (left right : Exchange) (like : entry.Like dictionary another) :
    Drawing.Agree (Lowered.Like dictionary) (lowerOnce left dictionary entry)
      (lowerOnce right dictionary another) := by
  obtain ⟨path_eq, marks, record?_eq, value_like⟩ := like
  cases holds : entry.value? with
  | none =>
      rw [holds] at value_like
      cases bare : another.value? with
      | some value =>
          rw [bare] at value_like
          cases value_like
      | none =>
          rw [lowerOnce_bare holds, lowerOnce_bare bare, record?_eq]
          exact .pure (.records (List.forall₂_same.mpr fun record _ => .refl _ record))
  | some value =>
      rw [holds] at value_like
      cases held : another.value? with
      | none =>
          rw [held] at value_like
          cases value_like
      | some other =>
          rw [held] at value_like
          obtain ⟨alike⟩ := value_like
          cases known : dictionary.attribute? entry.path with
          | none =>
              rw [lowerOnce_unknown holds known, lowerOnce_unknown held (path_eq ▸ known), path_eq]
              exact .throw _
          | some definition =>
              rw [← dictionary.path_of_attribute? known] at alike
              exact known_agree left right holds held known (path_eq ▸ known) marks alike

/-- The run: what encloses an attribute stands higher, so lowering ends, and in both runs alike. -/
theorem lower_agree (left right : Exchange) (like : entry.Like dictionary another) :
    Drawing.Agree (List.Forall₂ (Record.Like dictionary)) (lower left dictionary entry)
      (lower right dictionary another) := by
  induction deep : entry.path.depth using Nat.strongRecOn generalizing entry another with
  | ind depth ih =>
      rw [lower, lower]
      apply (lowerOnce_agree left right like).bind
      intro step other alike
      cases alike with
      | records like => exact .pure like
      | @enclosed outer outside shallower higher like => exact ih _ (deep ▸ shallower) like rfl

end Lowering

end Attributes

/-- Attributes are sent alike by two sides that share neither a secret nor a random source. -/
theorem lowerAll_agree (left right : Exchange) (dictionary : Dictionary)
    (entries : List Attribute) :
    Drawing.Agree (List.Forall₂ (Record.Like dictionary)) (lowerAll left dictionary entries)
      (lowerAll right dictionary entries) := by
  have each (entry : Attribute) := Lowering.lower_agree left right (.refl dictionary entry)
  apply (Drawing.Agree.mapM entries each).bind
  intro groups others alike
  exact .pure (List.rel_flatten alike)

end Radius
