import Excerpt.Proofs.Input.Format
import Excerpt.Proofs.Input.Paths
import Mathlib.Data.List.Nodup

/-! The documented shape as a tree of positions, each with a rule, and the places of a value at
these positions, in the order in which they are looked at. A path leads to one position, and a
value has at most one place there. -/
namespace Excerpt.Schema

/-! ## Positions -/

/-- What a value has to be. -/
inductive Rule where
  | text | offset | labelStyle | severity | list | object
  /-- An object, as the whole of an input. -/
  | document
  deriving DecidableEq, Repr

def Rule.Allows : Rule → Json → Prop
  | text, v => IsText v
  | offset, v => IsOffset v
  | labelStyle, v => IsLabelStyle v
  | severity, v => IsSeverity v
  | list, v => ∃ items, v = .list items
  | object, v => ∃ members, v = .object members
  | document, v => ∃ members, v = .object members

/-- What is wrong with a value that breaks a rule, or with a value that is missing. -/
def Rule.fault : Rule → Option Json → InputFault
  | text, _ => .expectedString
  | offset, _ => .expectedOffset
  | labelStyle, _ => .expectedLabelStyle
  | severity, some (.text word) => .unknownSeverity word
  | severity, _ => .expectedString
  | list, _ => .expectedArray
  | object, _ => .expectedObject
  | document, _ => .expectedDiagnostics

mutual

/-- A rule for a value, with what there is below it. -/
inductive Form where
  | leaf (rule : Rule)
  | list (item : Form)
  | object (rule : Rule) (fields : Fields)

/-- The fields of an object in the order in which they are looked at. -/
inductive Fields where
  | none
  | field (name : String) (required : Bool) (form : Form) (rest : Fields)

end

def Form.rule : Form → Rule
  | leaf rule => rule
  | list _ => .list
  | object rule _ => rule

def labelForm : Form :=
  .object .object <|
    .field "end" true (.leaf .offset) <|
    .field "file" true (.leaf .text) <|
    .field "message" false (.leaf .text) <|
    .field "start" true (.leaf .offset) <|
    .field "style" false (.leaf .labelStyle) .none

def diagnosticForm : Form :=
  .object .object <|
    .field "code" false (.leaf .text) <|
    .field "labels" false (.list labelForm) <|
    .field "message" true (.leaf .text) <|
    .field "notes" false (.list (.leaf .text)) <|
    .field "severity" true (.leaf .severity) .none

def inputForm : Form :=
  .object .document <| .field "diagnostics" true (.list diagnosticForm) .none

/-- A position with the value that is there, if any. -/
structure Place where
  path : List Step
  rule : Rule
  required : Bool
  value? : Option Json

/-- Only a field that is not required may be missing. -/
def Place.Conforms (p : Place) : Prop :=
  match p.value? with
  | none => p.required = false
  | some v => p.rule.Allows v

def Place.error (p : Place) : InputError := ⟨p.path, p.rule.fault p.value?⟩

mutual

/-- The positions of a value, each before those below it. Nothing is below a value that is not
a list or an object where one belongs. -/
def Form.places (path : List Step) (required : Bool) (value? : Option Json) : Form → List Place
  | .leaf rule => [⟨path, rule, required, value?⟩]
  | .list item =>
    ⟨path, .list, required, value?⟩ ::
      match value? with
      | some (.list items) =>
        items.zipIdx.flatMap fun (v, i) => item.places (path ++ [.index i]) true (some v)
      | _ => []
  | .object rule fields =>
    ⟨path, rule, required, value?⟩ ::
      match value? with
      | some (.object members) => fields.places path members
      | _ => []

def Fields.places (path : List Step) (members : Members) : Fields → List Place
  | .none => []
  | .field name required form rest =>
    form.places (path ++ [.key name]) required (Json.member? members name) ++
      rest.places path members

end

/-- A missing field has nothing below it. -/
theorem Form.places_none (form : Form) (path : List Step) (required : Bool) :
    form.places path required none = [⟨path, form.rule, required, none⟩] := by
  cases form <;> rfl

/-- The positions of a whole input. -/
def inputPlaces (v : Json) : List Place := inputForm.places [] true (some v)

/-! ## The first fault -/

/-- The first place that does not conform, as an error. -/
def FirstFault (places : List Place) (e : InputError) : Prop :=
  ∃ before place after, places = before ++ place :: after ∧ (∀ p ∈ before, p.Conforms) ∧
    ¬place.Conforms ∧ e = place.error

theorem firstFault_nil (e : InputError) : ¬FirstFault [] e := by
  rintro ⟨before, place, after, split, _⟩
  cases before <;> cases split

theorem firstFault_cons {p : Place} {ps : List Place} {e : InputError} :
    FirstFault (p :: ps) e ↔
      ¬p.Conforms ∧ e = p.error ∨ p.Conforms ∧ FirstFault ps e := by
  constructor
  · rintro ⟨before, place, after, split, good, bad, own⟩
    rcases List.cons_eq_append_iff.mp split with ⟨rfl, eq⟩ | ⟨before, rfl, rest⟩
    · cases eq
      exact .inl ⟨bad, own⟩
    · obtain ⟨first, good⟩ := List.forall_mem_cons.mp good
      exact .inr ⟨first, before, place, after, rest, good, bad, own⟩
  · rintro (⟨bad, own⟩ | ⟨first, before, place, after, rfl, good, bad, own⟩)
    · exact ⟨[], p, ps, rfl, by simp, bad, own⟩
    · exact ⟨p :: before, place, after, rfl, List.forall_mem_cons.mpr ⟨first, good⟩, bad, own⟩

theorem firstFault_append {ps qs : List Place} {e : InputError} :
    FirstFault (ps ++ qs) e ↔ FirstFault ps e ∨ (∀ p ∈ ps, p.Conforms) ∧ FirstFault qs e := by
  induction ps with
  | nil => simp [firstFault_nil]
  | cons p ps ih =>
    rw [List.cons_append, firstFault_cons, firstFault_cons, ih, List.forall_mem_cons]
    tauto

theorem exists_firstFault {ps : List Place} :
    (∃ e, FirstFault ps e) ↔ ¬∀ p ∈ ps, p.Conforms := by
  induction ps with
  | nil => simp [firstFault_nil]
  | cons p ps ih =>
    simp only [firstFault_cons, List.forall_mem_cons, exists_or, exists_and_left, ih,
      exists_eq, and_true]
    tauto

/-! ## Paths of positions -/

def Fields.names : Fields → List String
  | .none => []
  | .field name _ _ rest => name :: rest.names

/-- The rule of a field, with what there is below it. -/
def Fields.form? (name : String) : Fields → Option Form
  | .none => Option.none
  | .field own _ form rest => if own = name then some form else rest.form? name

mutual

/-- No two fields of an object have one name, and no name has marks of paths in it. -/
def Form.Proper : Form → Prop
  | .leaf _ => True
  | .list item => item.Proper
  | .object _ fields => fields.Proper

def Fields.Proper : Fields → Prop
  | .none => True
  | .field name _ form rest =>
    (Step.key name).Plain ∧ name ∉ rest.names ∧ form.Proper ∧ rest.Proper

end

/-- What stands at a path below a position of the schema. -/
inductive Form.At : Form → List Step → Form → Prop
  | here (form : Form) : At form [] form
  | item {item sub : Form} {path : List Step} (i : Nat) (h : At item path sub) :
    At (.list item) (.index i :: path) sub
  | field {rule : Rule} {fields : Fields} {name : String} {form sub : Form} {path : List Step}
    (own : fields.form? name = some form) (h : At form path sub) :
    At (.object rule fields) (.key name :: path) sub

/-- A path leads to one position. -/
theorem Form.At.unique {form a b : Form} {path : List Step} (ha : form.At path a)
    (hb : form.At path b) : a = b := by
  induction ha with
  | here => cases hb; rfl
  | item i _ ih =>
    cases hb with
    | item _ h => exact ih h
  | field own _ ih =>
    cases hb with
    | field own' h =>
      cases own.symm.trans own'
      exact ih h

theorem Fields.mem_names_of_form? {fields : Fields} {name : String} {form : Form}
    (h : fields.form? name = some form) : name ∈ fields.names := by
  cases fields with
  | none => cases h
  | field own required first rest =>
    rw [form?] at h
    split at h
    · rename_i same
      exact same ▸ List.mem_cons_self
    · exact List.mem_cons_of_mem _ (mem_names_of_form? h)

theorem Fields.Proper.of_form? {fields : Fields} (h : fields.Proper) {name : String} {form : Form}
    (own : fields.form? name = some form) : (Step.key name).Plain ∧ form.Proper := by
  cases fields with
  | none => cases own
  | field first required given rest =>
    obtain ⟨plain, _, proper, later⟩ := h
    rw [form?] at own
    split at own
    · rename_i same
      cases own
      exact ⟨same ▸ plain, proper⟩
    · exact Proper.of_form? later own

theorem Form.At.plain {form sub : Form} {path : List Step} (h : form.At path sub)
    (proper : form.Proper) : ∀ s ∈ path, s.Plain := by
  induction h with
  | here => simp
  | item i _ ih => exact List.forall_mem_cons.mpr ⟨trivial, ih proper⟩
  | field own _ ih =>
    obtain ⟨plain, below⟩ := Fields.Proper.of_form? proper own
    exact List.forall_mem_cons.mpr ⟨plain, ih below⟩

/-- The part of a value at a path below it, if there is one. -/
def part? : List Step → Json → Option Json
  | [], v => some v
  | .key name :: path, .object members => (Json.member? members name).bind (part? path)
  | .index i :: path, .list items => items[i]?.bind (part? path)
  | _, _ => none

/-- A place at a position of the schema: its path leads there, it has the rule from there, and
its value is the one at that path. -/
def Place.StandsAt (p : Place) (path : List Step) (value? : Option Json) (form : Form) : Prop :=
  ∃ steps sub, p.path = path ++ steps ∧ form.At steps sub ∧ p.rule = sub.rule ∧
    p.value? = value?.bind (part? steps)

mutual

theorem Form.places_stand (form : Form) (proper : form.Proper) (path : List Step)
    (required : Bool) (value? : Option Json) :
    ∀ p ∈ form.places path required value?, p.StandsAt path value? form := by
  have own : Place.StandsAt ⟨path, form.rule, required, value?⟩ path value? form :=
    ⟨[], form, (List.append_nil path).symm, .here form, rfl, (Option.bind_fun_some value?).symm⟩
  cases form with
  | leaf rule => exact List.forall_mem_singleton.mpr own
  | list item =>
    refine List.forall_mem_cons.mpr ⟨own, ?_⟩
    split
    · intro p hp
      obtain ⟨⟨v, i⟩, listed, inside⟩ := List.mem_flatMap.mp hp
      obtain ⟨steps, sub, eq, at_sub, rule, value⟩ := item.places_stand proper _ _ _ p inside
      have here := List.mem_zipIdx_iff_getElem?.mp listed
      exact ⟨.index i :: steps, sub, by simp [eq], .item i at_sub, rule,
        by simp [value, part?, here]⟩
    · simp
  | object rule fields =>
    refine List.forall_mem_cons.mpr ⟨own, ?_⟩
    split
    · intro p hp
      obtain ⟨name, form, steps, sub, eq, found, at_sub, rule, value⟩ :=
        fields.places_stand proper _ _ p hp
      exact ⟨.key name :: steps, sub, eq, .field found at_sub, rule, value⟩
    · simp

theorem Fields.places_stand (fields : Fields) (proper : fields.Proper) (path : List Step)
    (members : Members) :
    ∀ p ∈ fields.places path members, ∃ name form steps sub,
      p.path = path ++ .key name :: steps ∧ fields.form? name = some form ∧
        form.At steps sub ∧ p.rule = sub.rule ∧
          p.value? = (Json.member? members name).bind (part? steps) := by
  cases fields with
  | none => intro p hp; cases hp
  | field first required form rest =>
    obtain ⟨_, other, proper, later⟩ := proper
    intro p hp
    rcases List.mem_append.mp hp with own | behind
    · obtain ⟨steps, sub, eq, at_sub, rule, value⟩ := form.places_stand proper _ _ _ p own
      exact ⟨first, form, steps, sub, by simp [eq], if_pos rfl, at_sub, rule, value⟩
    · obtain ⟨name, form, steps, sub, eq, found, at_sub, rule, value⟩ :=
        rest.places_stand later path members p behind
      -- A later field of this name would be hidden by the first one.
      have ne : first ≠ name := fun same => other (same ▸ Fields.mem_names_of_form? found)
      exact ⟨name, form, steps, sub, eq, (if_neg ne).trans found, at_sub, rule, value⟩

end

theorem Fields.places_of_form? {fields : Fields} {name : String} {form : Form}
    (own : fields.form? name = some form) (path : List Step) (members : Members) :
    ∃ required, form.places (path ++ [.key name]) required (Json.member? members name) ⊆
      fields.places path members := by
  cases fields with
  | none => cases own
  | field first required given rest =>
    rw [form?] at own
    split at own
    · rename_i same
      cases own
      exact ⟨required, same ▸ List.subset_append_left _ _⟩
    · obtain ⟨required, inside⟩ := places_of_form? own path members
      exact ⟨required, List.Subset.trans inside (List.subset_append_right _ _)⟩

/-- What is visited below a position that a value has is visited when all of the value is. -/
theorem Form.At.places_subset {form sub : Form} {steps : List Step} (h : form.At steps sub)
    {value? : Option Json} {w : Json} (there : value?.bind (part? steps) = some w)
    (path : List Step) (required : Bool) :
    ∃ below, sub.places (path ++ steps) below (some w) ⊆
      form.places path required value? := by
  induction h generalizing value? path required with
  | here form =>
    change value?.bind some = some w at there
    rw [Option.bind_fun_some] at there
    rw [there, List.append_nil]
    exact ⟨required, List.Subset.refl _⟩
  | @item item sub steps i _ ih =>
    obtain ⟨v, rfl, found⟩ := Option.bind_eq_some_iff.mp there
    cases v with
    | list items =>
      obtain ⟨v, here, found⟩ := Option.bind_eq_some_iff.mp found
      have found : (some v).bind (part? steps) = some w := found
      obtain ⟨below, inside⟩ := ih found (path ++ [.index i]) true
      refine ⟨below, ?_⟩
      rw [List.append_cons]
      refine List.Subset.trans inside fun p hp => List.mem_cons_of_mem _ ?_
      exact List.mem_flatMap.mpr ⟨(v, i), List.mem_zipIdx_iff_getElem?.mpr here, hp⟩
    | _ => cases found
  | @field rule fields name form sub steps own _ ih =>
    obtain ⟨v, rfl, found⟩ := Option.bind_eq_some_iff.mp there
    cases v with
    | object members =>
      obtain ⟨needed, listed⟩ := Fields.places_of_form? own path members
      obtain ⟨below, inside⟩ := ih found (path ++ [.key name]) needed
      refine ⟨below, ?_⟩
      rw [List.append_cons]
      exact List.Subset.trans inside (List.Subset.trans listed (List.subset_cons_self _ _))
    | _ => cases found

/-- What is visited below a position of an input is visited when all of the input is. -/
theorem Form.At.subset_inputPlaces {sub : Form} {path : List Step} (h : inputForm.At path sub)
    {v w : Json} (there : part? path v = some w) :
    ∃ below, sub.places path below (some w) ⊆ inputPlaces v := by
  have whole : (some v).bind (part? path) = some w := there
  exact h.places_subset whole [] true

theorem Form.own_mem_places (form : Form) (path : List Step) (required : Bool)
    (value? : Option Json) :
    (⟨path, form.rule, required, value?⟩ : Place) ∈ form.places path required value? := by
  cases form <;> exact List.mem_cons_self

mutual

/-- No position is visited twice. -/
theorem Form.nodup_places (form : Form) (proper : form.Proper) (path : List Step)
    (required : Bool) (value? : Option Json) :
    ((form.places path required value?).map Place.path).Nodup := by
  cases form with
  | leaf rule => exact List.nodup_singleton _
  | list item =>
    refine List.nodup_cons.mpr ?_
    split
    · rename_i items
      have within (entry : Json × Nat) : ∀ at_path ∈
          (item.places (path ++ [.index entry.2]) true (some entry.1)).map Place.path,
          ∃ steps, at_path = path ++ .index entry.2 :: steps := by
        intro at_path h
        obtain ⟨p, hp, rfl⟩ := List.mem_map.mp h
        obtain ⟨steps, _, eq, _⟩ := item.places_stand proper _ _ _ p hp
        exact ⟨steps, by simp [eq]⟩
      rw [List.map_flatMap]
      constructor
      · intro again
        obtain ⟨entry, _, inside⟩ := List.mem_flatMap.mp again
        obtain ⟨steps, eq⟩ := within entry _ inside
        simp at eq
      · refine List.nodup_flatMap.mpr ⟨fun entry _ => item.nodup_places proper _ _ _, ?_⟩
        have numbers : (items.zipIdx.map (·.2)).Nodup := by
          rw [List.zipIdx_map_snd]
          exact List.nodup_range'
        refine (List.pairwise_map.mp numbers).imp fun {a b} differ => ?_
        intro at_path ha hb
        obtain ⟨_, eq⟩ := within a _ ha
        obtain ⟨_, eq'⟩ := within b _ hb
        have same := List.append_cancel_left (eq.symm.trans eq')
        exact differ (Step.index.inj (List.cons.inj same).1)
    · simp
  | object rule fields =>
    refine List.nodup_cons.mpr ?_
    split
    · rename_i members
      refine ⟨?_, fields.nodup_places proper path members⟩
      intro again
      obtain ⟨p, hp, eq⟩ := List.mem_map.mp again
      obtain ⟨_, _, _, _, eq', _⟩ := fields.places_stand proper path members p hp
      simp [eq'] at eq
    · simp

theorem Fields.nodup_places (fields : Fields) (proper : fields.Proper) (path : List Step)
    (members : Members) : ((fields.places path members).map Place.path).Nodup := by
  cases fields with
  | none => exact .nil
  | field first required form rest =>
    obtain ⟨_, other, proper, later⟩ := proper
    rw [Fields.places, List.map_append]
    refine List.nodup_append.mpr
      ⟨form.nodup_places proper _ _ _, rest.nodup_places later path members, ?_⟩
    intro a ha b hb same
    obtain ⟨p, hp, rfl⟩ := List.mem_map.mp ha
    obtain ⟨q, hq, rfl⟩ := List.mem_map.mp hb
    obtain ⟨_, _, eq, _⟩ := form.places_stand proper _ _ _ p hp
    obtain ⟨name, _, _, _, eq', found, _⟩ := rest.places_stand later path members q hq
    rw [eq, eq', List.append_assoc] at same
    cases List.append_cancel_left same
    exact other (Fields.mem_names_of_form? found)

end

theorem inputForm_proper : inputForm.Proper := by
  simp [inputForm, diagnosticForm, labelForm, Form.Proper, Fields.Proper, Fields.names,
    Step.Plain, Step.IsMark]

end Excerpt.Schema
