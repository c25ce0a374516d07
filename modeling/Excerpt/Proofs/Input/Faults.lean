import Excerpt.Proofs.Input.Places

/-! What is reported of a value that does not have the documented shape: the first of its places
that does not conform. The formatted path of that place belongs to no other position. -/
namespace Excerpt.Schema

/-- A reading that fails with the first fault among some places, and else does not fail. -/
def Checks {α : Type} (read : Except InputError α) (places : List Place) : Prop :=
  ∀ e, read = .error e ↔ FirstFault places e

namespace Checks

variable {α β : Type} {read : Except InputError α} {places : List Place}

theorem pure (a : α) : Checks (.ok a) [] := fun e => by simp [firstFault_nil]

theorem conforms_iff (h : Checks read places) :
    (∃ a, read = .ok a) ↔ ∀ p ∈ places, p.Conforms := by
  rw [← not_iff_not, ← exists_firstFault]
  cases read with
  | ok a => simp [← h _]
  | error e => simpa using ⟨e, (h e).mp rfl⟩

theorem bind (h : Checks read places) {next : α → Except InputError β} {others : List Place}
    (later : ∀ a, Checks (next a) others) : Checks (read >>= next) (places ++ others) := by
  intro e
  rw [bind_eq_error_iff, firstFault_append, ← h e, ← h.conforms_iff]
  refine or_congr_right ?_
  constructor
  · rintro ⟨a, own, failed⟩
    exact ⟨⟨a, own⟩, (later a e).mp failed⟩
  · rintro ⟨⟨a, own⟩, fault⟩
    exact ⟨a, own, (later a e).mpr fault⟩

theorem map (h : Checks read places) (f : α → β) : Checks (f <$> read) places := by
  intro e
  rw [← h e]
  cases read <;> simp [Functor.map, Except.map]

/-- Where a value conforms, the faults are those of the places below it. -/
theorem cons {p : Place} (conforms : p.Conforms) (h : Checks read places) :
    Checks read (p :: places) := by
  intro e
  rw [firstFault_cons, h e]
  tauto

/-- Where a value does not conform, that is the fault. -/
theorem refused {p : Place} (bad : ¬p.Conforms) :
    Checks (.error p.error : Except InputError α) [p] := by
  intro e
  rw [firstFault_cons, Except.error.injEq, eq_comm]
  tauto

end Checks

/-! ## Readers report the first fault -/

/-- A reader that fails with the first fault among the places of the value it reads. -/
def Finds {α : Type} (read : Reader α) (form : Form) : Prop :=
  ∀ path required v, Checks (read path v) (form.places path required (some v))

section

variable {α : Type} {read : Reader α}

theorem Reads.finds {rule : Rule} {means : Json → α → Prop} (reads : Reads read means)
    (covers : Covers rule.Allows means)
    (fault : ∀ path v e, read path v = .error e → e = ⟨path, rule.fault (some v)⟩) :
    Finds read (.leaf rule) := by
  intro path required v
  cases made : read path v with
  | ok a =>
    have conforms : rule.Allows v := (covers v).mpr ⟨a, (reads path v a).mp made⟩
    exact .cons conforms (.pure a)
  | error e =>
    have bad : ¬rule.Allows v := by
      intro allowed
      obtain ⟨a, own⟩ := (covers v).mp allowed
      cases made.symm.trans ((reads path v a).mpr own)
    rw [fault path v e made]
    exact .refused (p := ⟨path, rule, required, some v⟩) bad

theorem Finds.items {form : Form} (h : Finds read form) (path : List Step) (index : Nat)
    (values : List Json) :
    Checks (items read path index values)
      ((values.zipIdx index).flatMap fun (v, i) =>
        form.places (path ++ [.index i]) true (some v)) := by
  induction values generalizing index with
  | nil => exact .pure []
  | cons v values ih =>
    rw [List.zipIdx_cons, List.flatMap_cons]
    refine (h (path ++ [.index index]) true v).bind fun first => ?_
    have rest := (ih (index + 1)).bind fun others => Checks.pure (first :: others)
    rwa [List.append_nil] at rest

theorem Finds.array {form : Form} (h : Finds read form) :
    Finds (array read) (.list form) := by
  intro path required v
  cases v with
  | list values => exact .cons ⟨values, rfl⟩ (h.items path 0 values)
  | _ => exact .refused (p := ⟨path, .list, required, some _⟩) (by rintro ⟨_, ⟨⟩⟩)

variable {form : Form} (members : Members) (path : List Step) (name : String)

theorem Finds.required (h : Finds read form) {missing : InputFault}
    (own : missing = form.rule.fault none) :
    Checks (required members path name missing read)
      (form.places (path ++ [.key name]) true (Json.member? members name)) := by
  unfold Schema.required
  cases Json.member? members name with
  | some v => exact h _ _ v
  | none =>
    rw [form.places_none, own]
    exact .refused (p := ⟨_, form.rule, true, none⟩) (by rintro ⟨⟩)

theorem Finds.optional (h : Finds read form) :
    Checks (optional members path name read)
      (form.places (path ++ [.key name]) false (Json.member? members name)) := by
  unfold Schema.optional
  cases Json.member? members name with
  | some v => exact (h _ _ v).map some
  | none =>
    rw [form.places_none]
    exact .cons rfl (.pure none)

end

theorem finds_string : Finds string (.leaf .text) := by
  refine reads_string.finds covers_text fun path v e failed => ?_
  cases v <;> cases failed <;> rfl

theorem finds_offset : Finds offset (.leaf .offset) := by
  refine reads_offset.finds covers_offset fun path v e failed => ?_
  cases v with
  | number value =>
    rw [offset] at failed
    split at failed <;> cases failed
    rfl
  | _ => cases failed; rfl

theorem finds_labelStyle : Finds labelStyle (.leaf .labelStyle) := by
  refine reads_labelStyle.finds covers_style fun path v e failed => ?_
  cases v with
  | text word =>
    rw [labelStyle] at failed
    split at failed
    · cases failed
    · split at failed <;> cases failed
      rfl
  | _ => cases failed; rfl

theorem finds_severity : Finds severity (.leaf .severity) := by
  refine reads_severity.finds covers_severity fun path v e failed => ?_
  cases v with
  | text word =>
    rw [severity] at failed
    split at failed <;> cases failed
    rfl
  | _ => cases failed; rfl

theorem finds_label : Finds label labelForm := by
  intro path required v
  cases v with
  | object members =>
    refine .cons ⟨members, rfl⟩ ?_
    refine (finds_offset.required members path "end" rfl).bind fun stop => ?_
    refine (finds_string.required members path "file" rfl).bind fun file => ?_
    refine (finds_string.optional members path "message").bind fun message => ?_
    refine (finds_offset.required members path "start" rfl).bind fun start => ?_
    exact (finds_labelStyle.optional members path "style").bind fun style => .pure _
  | _ => exact .refused (p := ⟨path, .object, required, some _⟩) (by rintro ⟨_, ⟨⟩⟩)

theorem finds_diagnostic : Finds diagnostic diagnosticForm := by
  intro path required v
  cases v with
  | object members =>
    refine .cons ⟨members, rfl⟩ ?_
    refine (finds_string.optional members path "code").bind fun code => ?_
    refine (finds_label.array.optional members path "labels").bind fun labels => ?_
    refine (finds_string.required members path "message" rfl).bind fun message => ?_
    refine (finds_string.array.optional members path "notes").bind fun notes => ?_
    exact (finds_severity.required members path "severity" rfl).bind fun severity => .pure _
  | _ => exact .refused (p := ⟨path, .object, required, some _⟩) (by rintro ⟨_, ⟨⟩⟩)

theorem checks_document (v : Json) : Checks (document v) (inputPlaces v) := by
  cases v with
  | object members =>
    refine .cons ⟨members, rfl⟩ ?_
    have whole := finds_diagnostic.array.required members [] "diagnostics" rfl
    rwa [← List.append_nil (Form.places _ _ _ _)] at whole
  | _ => exact .refused (p := ⟨[], .document, true, some _⟩) (by rintro ⟨_, ⟨⟩⟩)

/-- What is reported of a value that is not accepted is the first fault among its positions, in
the order of the schema. Positions are visited under the rule that the schema has at their paths
and with the value that is there. Wherever there is a value, and at every field of an object, one
is visited, and only once; and its formatted path is that of no other one. -/
theorem first_fault_reported :
    (∀ v e, document v = .error e ↔ FirstFault (inputPlaces v) e) ∧
    (∀ text v e, Json.ofText text = .ok v →
      (parseInput text = .error e ↔ FirstFault (inputPlaces v) e)) ∧
    (∀ v, ∀ p ∈ inputPlaces v,
      ∃ sub, inputForm.At p.path sub ∧ p.rule = sub.rule ∧ p.value? = part? p.path v) ∧
    (∀ v path sub w, inputForm.At path sub → part? path v = some w →
      ∃ p ∈ inputPlaces v, p.path = path) ∧
    (∀ v path rule fields members name form, inputForm.At path (.object rule fields) →
      part? path v = some (.object members) → fields.form? name = some form →
      ∃ p ∈ inputPlaces v, p.path = path ++ [.key name]) ∧
    (∀ v, ((inputPlaces v).map fun p => issuePath p.path).Nodup) ∧
    ∀ p q a b, inputForm.At p a → inputForm.At q b → issuePath p = issuePath q →
      p = q ∧ a = b := by
  have positions (v : Json) (p : Place) (hp : p ∈ inputPlaces v) :
      ∃ sub, inputForm.At p.path sub ∧ p.rule = sub.rule ∧ p.value? = part? p.path v := by
    obtain ⟨steps, sub, eq, at_sub, rule, value⟩ :=
      inputForm.places_stand inputForm_proper [] true (some v) p hp
    rw [List.nil_append] at eq
    exact ⟨sub, eq ▸ at_sub, rule, eq ▸ value⟩
  have distinct {p q : List Step} {a b : Form} (ha : inputForm.At p a) (hb : inputForm.At q b)
      (same : issuePath p = issuePath q) : p = q :=
    issuePath_inj (ha.plain inputForm_proper) (hb.plain inputForm_proper) same
  refine ⟨checks_document, ?text, positions, ?visited, ?field, ?once, ?path⟩
  case text =>
    intro text v e valid
    rw [← checks_document v e, parseInput, valid]
  case visited =>
    intro v path sub w leads there
    obtain ⟨below, inside⟩ := leads.subset_inputPlaces there
    exact ⟨_, inside (sub.own_mem_places _ below (some w)), rfl⟩
  case field =>
    intro v path rule fields members name form leads there own
    obtain ⟨below, inside⟩ := leads.subset_inputPlaces there
    obtain ⟨required, listed⟩ := Fields.places_of_form? own path members
    have visited := listed (form.own_mem_places _ required (Json.member? members name))
    exact ⟨_, inside (List.mem_cons_of_mem _ visited), rfl⟩
  case once =>
    intro v
    have paths : ((inputPlaces v).map Place.path).Nodup :=
      inputForm.nodup_places inputForm_proper [] true (some v)
    have formatted : (((inputPlaces v).map Place.path).map issuePath).Nodup := by
      refine List.Nodup.map_on ?_ paths
      intro a ha b hb same
      obtain ⟨p, hp, rfl⟩ := List.mem_map.mp ha
      obtain ⟨q, hq, rfl⟩ := List.mem_map.mp hb
      obtain ⟨_, at_p, _⟩ := positions v p hp
      obtain ⟨_, at_q, _⟩ := positions v q hq
      exact distinct at_p at_q same
    rwa [List.map_map] at formatted
  case path =>
    intro p q a b ha hb same
    have eq := distinct ha hb same
    subst eq
    exact ⟨rfl, ha.unique hb⟩

namespace Sample

/-- Without an end the second label is wrong; so are its style and the message after it. -/
def brokenInput : Json :=
  .object [("diagnostics", .list [.object [("message", .null), ("severity", .text "loud"),
    ("labels", .list [
      .object [("file", .text "a"), ("start", .number (0 : Nat)), ("end", .number (1 : Nat))],
      .object [("style", .text "bold"), ("file", .text "b")]])]])]

end Sample

theorem first_fault_reported_sample :
    ∃ e, document Sample.brokenInput = .error e ∧
      FirstFault (inputPlaces Sample.brokenInput) e ∧
      e.message = "$.diagnostics[0].labels[1].end: expected a non-negative integer" := by
  have failed : document Sample.brokenInput = .error
      ⟨[.key "diagnostics", .index 0, .key "labels", .index 1, .key "end"], .expectedOffset⟩ := by
    decide +kernel
  exact ⟨_, failed, (first_fault_reported.1 _ _).mp failed, by decide +kernel⟩

end Excerpt.Schema
