import Excerpt.Input.Schema
import Excerpt.Proofs.Resolution

/-! Which JSON values describe diagnostics, and what they describe. A field that may be left
out is either absent or has the shape it must have; members of other names are never looked at.
A description is read back as what it was written from, however its defaults are written. -/
namespace Excerpt.Schema

/-- The members of an object. -/
abbrev Members := List (String × Json)

/-! ## The documented shape -/

def IsText (v : Json) : Prop := ∃ text, v = .text text

/-- A number that is finite, not negative and without a fraction. -/
def IsOffset (v : Json) : Prop :=
  ∃ value : Rat, v = .number (.finite value) ∧ 0 ≤ value ∧ value.den = 1

def IsLabelStyle (v : Json) : Prop := v = .text "primary" ∨ v = .text "secondary"

/-- One of the five words for severities. -/
def IsSeverity (v : Json) : Prop := ∃ severity : Severity, v = .text severity.name

def IsListOf (shape : Json → Prop) (v : Json) : Prop :=
  ∃ items, v = .list items ∧ ∀ item ∈ items, shape item

def IsObjectWith (shape : Members → Prop) (v : Json) : Prop :=
  ∃ members, v = .object members ∧ shape members

/-- A field that is there and has a shape. -/
def Has (members : Members) (name : String) (shape : Json → Prop) : Prop :=
  ∃ v, Json.member? members name = some v ∧ shape v

/-- A field that is absent, or has a shape. A null is not absent. -/
def MayHave (members : Members) (name : String) (shape : Json → Prop) : Prop :=
  Json.member? members name = none ∨ Has members name shape

structure LabelShape (members : Members) : Prop where
  file : Has members "file" IsText
  start : Has members "start" IsOffset
  stop : Has members "end" IsOffset
  message : MayHave members "message" IsText
  style : MayHave members "style" IsLabelStyle

structure DiagnosticShape (members : Members) : Prop where
  message : Has members "message" IsText
  severity : Has members "severity" IsSeverity
  code : MayHave members "code" IsText
  notes : MayHave members "notes" (IsListOf IsText)
  labels : MayHave members "labels" (IsListOf (IsObjectWith LabelShape))

/-- The documented format. -/
def Documented : Json → Prop :=
  IsObjectWith fun members =>
    Has members "diagnostics" (IsListOf (IsObjectWith DiagnosticShape))

/-! ## What is described -/

/-- A word for a style of labels. -/
def styleWord : LabelStyle → String
  | .primary => "primary"
  | .secondary => "secondary"

/-- A field with a meaning. -/
def Gives {α : Type} (members : Members) (name : String) (means : Json → α → Prop) (a : α) : Prop :=
  ∃ v, Json.member? members name = some v ∧ means v a

/-- What a field gives that may be left out. -/
inductive MayGive {α : Type} (members : Members) (name : String) (means : Json → α → Prop) :
    Option α → Prop
  | absent (h : Json.member? members name = none) : MayGive members name means none
  | present {a : α} (h : Gives members name means a) : MayGive members name means (some a)

def DescribesList {α : Type} (means : Json → α → Prop) (v : Json) (xs : List α) : Prop :=
  ∃ items, v = .list items ∧ List.Forall₂ means items xs

def DescribesText (v : Json) (text : String) : Prop := v = .text text

def DescribesOffset (v : Json) (n : Nat) : Prop := v = .number (n : Number)

def DescribesStyle (v : Json) (style : LabelStyle) : Prop := v = .text (styleWord style)

def DescribesSeverity (v : Json) (severity : Severity) : Prop := v = .text severity.name

/-- Without a style a label is primary. -/
def DescribesLabel (v : Json) (l : LabelInput) : Prop :=
  ∃ members style, v = .object members ∧ Gives members "file" DescribesText l.file ∧
    Gives members "start" DescribesOffset l.start ∧ Gives members "end" DescribesOffset l.stop ∧
    MayGive members "message" DescribesText l.message ∧
    MayGive members "style" DescribesStyle style ∧ l.style = style.getD .primary

/-- Without labels or notes a diagnostic has none. -/
def DescribesDiagnostic (v : Json) (d : DiagnosticInput) : Prop :=
  ∃ members labels notes, v = .object members ∧
    Gives members "message" DescribesText d.message ∧
    Gives members "severity" DescribesSeverity d.severity ∧
    MayGive members "code" DescribesText d.code ∧
    MayGive members "labels" (DescribesList DescribesLabel) labels ∧ d.labels = labels.getD [] ∧
    MayGive members "notes" (DescribesList DescribesText) notes ∧ d.notes = notes.getD []

/-- What a value describes. -/
def Describes (v : Json) (inputs : List DiagnosticInput) : Prop :=
  ∃ members, v = .object members ∧
    Gives members "diagnostics" (DescribesList DescribesDiagnostic) inputs

/-! ## What readers accept -/

/-- A reader that makes of a value what it describes, wherever the value is. -/
def Reads {α : Type} (read : Reader α) (means : Json → α → Prop) : Prop :=
  ∀ path v a, read path v = .ok a ↔ means v a

theorem reads_string : Reads string DescribesText := by
  intro path v text
  cases v <;> simp [string, DescribesText]

theorem reads_offset : Reads offset DescribesOffset := by
  intro path v n
  cases v with
  | number value =>
    simp only [offset, DescribesOffset, Json.number.injEq, ← Number.toNat?_eq_some_iff]
    cases value.toNat? <;> simp
  | _ => simp [offset, DescribesOffset]

theorem reads_labelStyle : Reads labelStyle DescribesStyle := by
  intro path v style
  cases v with
  | text word =>
    simp only [labelStyle, DescribesStyle, Json.text.injEq]
    split
    · rename_i primary
      subst primary
      cases style <;> simp [styleWord]
    · split
      · rename_i secondary
        subst secondary
        cases style <;> simp [styleWord]
      · cases style <;> simp_all [styleWord]
  | _ => simp [labelStyle, DescribesStyle]

theorem ofName?_eq_some_iff {name : String} {s : Severity} :
    Severity.ofName? name = some s ↔ name = s.name := by
  constructor
  · intro h
    have same := List.find?_some h
    exact (beq_iff_eq.mp same).symm
  · rintro rfl
    exact s.ofName?_name

theorem reads_severity : Reads severity DescribesSeverity := by
  intro path v s
  cases v with
  | text word =>
    simp only [severity, DescribesSeverity, Json.text.injEq, ← ofName?_eq_some_iff]
    cases Severity.ofName? word <;> simp
  | _ => simp [severity, DescribesSeverity]

section

variable {α : Type} {read : Reader α} {means : Json → α → Prop}

theorem items_eq_ok_iff (h : Reads read means) (path : List Step) (index : Nat)
    (values : List Json) (xs : List α) :
    items read path index values = .ok xs ↔ List.Forall₂ means values xs := by
  induction values generalizing index xs with
  | nil => cases xs <;> simp [items]
  | cons v values ih =>
    rw [items, bind_eq_ok_iff, List.forall₂_cons_left_iff]
    constructor
    · rintro ⟨x, first, rest⟩
      obtain ⟨others, later, made⟩ := bind_eq_ok_iff.mp rest
      cases made
      exact ⟨x, others, (h _ v x).mp first, (ih _ others).mp later, rfl⟩
    · rintro ⟨x, others, first, later, rfl⟩
      refine ⟨x, (h _ v x).mpr first, bind_eq_ok_iff.mpr ⟨others, (ih _ others).mpr later, rfl⟩⟩

theorem Reads.array (h : Reads read means) : Reads (array read) (DescribesList means) := by
  intro path v xs
  cases v with
  | list values => simp [Schema.array, DescribesList, items_eq_ok_iff h]
  | _ => simp [Schema.array, DescribesList]

theorem Reads.required (h : Reads read means) {members : Members} {path : List Step}
    {name : String} {missing : InputFault} {a : α} :
    required members path name missing read = .ok a ↔ Gives members name means a := by
  unfold Schema.required Gives
  cases Json.member? members name with
  | none => simp
  | some v => simp [h _ v a]

theorem Reads.optional (h : Reads read means) {members : Members} {path : List Step}
    {name : String} {a : Option α} :
    optional members path name read = .ok a ↔ MayGive members name means a := by
  unfold Schema.optional
  cases found : Json.member? members name with
  | none =>
    constructor
    · rintro ⟨⟩
      exact .absent found
    · rintro (_ | ⟨_, present, _⟩)
      · rfl
      · cases found.symm.trans present
  | some v =>
    have made : some <$> read (path ++ [.key name]) v = .ok a ↔
        ∃ b, read (path ++ [.key name]) v = .ok b ∧ some b = a := by
      cases read (path ++ [.key name]) v <;> simp [Functor.map, Except.map]
    dsimp only
    rw [made]
    constructor
    · rintro ⟨b, own, rfl⟩
      exact .present ⟨v, found, (h _ v b).mp own⟩
    · rintro (absent | ⟨w, present, own⟩)
      · cases found.symm.trans absent
      · cases found.symm.trans present
        exact ⟨_, (h _ v _).mpr own, rfl⟩

end

theorem reads_label : Reads label DescribesLabel := by
  intro path v l
  cases v with
  | object members =>
    simp only [label, bind_eq_ok_iff, reads_offset.required, reads_string.required,
      reads_string.optional, reads_labelStyle.optional]
    constructor
    · rintro ⟨stop, hstop, file, hfile, message, hmessage, start, hstart, style, hstyle, made⟩
      cases made
      exact ⟨members, style, rfl, hfile, hstart, hstop, hmessage, hstyle, rfl⟩
    · rintro ⟨_, style, ⟨⟩, file, start, stop, message, hstyle, primary⟩
      refine ⟨l.stop, stop, l.file, file, l.message, message, l.start, start, style, hstyle, ?_⟩
      rw [← primary]
      rfl
  | _ => simp [label, DescribesLabel]

theorem reads_diagnostic : Reads diagnostic DescribesDiagnostic := by
  intro path v d
  cases v with
  | object members =>
    simp only [diagnostic, bind_eq_ok_iff, reads_string.required, reads_string.optional,
      reads_severity.required, reads_label.array.optional, reads_string.array.optional]
    constructor
    · rintro ⟨code, hcode, labels, hlabels, message, hmessage, notes, hnotes, severity, hseverity,
        made⟩
      cases made
      exact ⟨members, labels, notes, rfl, hmessage, hseverity, hcode, hlabels, rfl, hnotes, rfl⟩
    · rintro ⟨_, labels, notes, ⟨⟩, message, severity, code, hlabels, own_labels, hnotes,
        own_notes⟩
      refine ⟨d.code, code, labels, hlabels, d.message, message, notes, hnotes, d.severity,
        severity, ?_⟩
      rw [← own_labels, ← own_notes]
      rfl
  | _ => simp [diagnostic, DescribesDiagnostic]

theorem document_eq_ok_iff {v : Json} {inputs : List DiagnosticInput} :
    document v = .ok inputs ↔ Describes v inputs := by
  cases v with
  | object members => simp [document, Describes, reads_diagnostic.array.required]
  | _ => simp [document, Describes]

/-! ## A shape is what has a meaning -/

/-- The values of a shape are those that describe something. -/
def Covers {α : Type} (shape : Json → Prop) (means : Json → α → Prop) : Prop :=
  ∀ v, shape v ↔ ∃ a, means v a

theorem covers_text : Covers IsText DescribesText := fun _ => Iff.rfl

theorem covers_offset : Covers IsOffset DescribesOffset := by
  intro v
  constructor
  · rintro ⟨value, rfl, positive, integral⟩
    have whole : Number.toNat? (.finite value) = some value.num.toNat :=
      if_pos ⟨integral, Rat.num_nonneg.mpr positive⟩
    exact ⟨_, congrArg Json.number (Number.toNat?_eq_some_iff.mp whole)⟩
  · rintro ⟨n, rfl⟩
    exact ⟨n, rfl, Rat.natCast_nonneg, Rat.den_natCast n⟩

theorem covers_severity : Covers IsSeverity DescribesSeverity := fun _ => Iff.rfl

theorem covers_style : Covers IsLabelStyle DescribesStyle := by
  intro v
  constructor
  · rintro (rfl | rfl)
    · exact ⟨.primary, rfl⟩
    · exact ⟨.secondary, rfl⟩
  · rintro ⟨_ | _, rfl⟩
    · exact .inl rfl
    · exact .inr rfl

section

variable {α : Type} {shape : Json → Prop} {means : Json → α → Prop} {members : Members}
  {name : String}

theorem Covers.list (h : Covers shape means) : Covers (IsListOf shape) (DescribesList means) := by
  intro v
  constructor
  · rintro ⟨items, rfl, each⟩
    have all : ∃ xs, List.Forall₂ means items xs := by
      induction items with
      | nil => exact ⟨[], .nil⟩
      | cons item items ih =>
        obtain ⟨own, others⟩ := List.forall_mem_cons.mp each
        obtain ⟨x, first⟩ := (h item).mp own
        obtain ⟨xs, rest⟩ := ih others
        exact ⟨x :: xs, .cons first rest⟩
    obtain ⟨xs, all⟩ := all
    exact ⟨xs, items, rfl, all⟩
  · rintro ⟨xs, items, rfl, all⟩
    refine ⟨items, rfl, ?_⟩
    induction all with
    | nil => simp
    | cons own _ ih => exact List.forall_mem_cons.mpr ⟨(h _).mpr ⟨_, own⟩, ih⟩

theorem Covers.has (h : Covers shape means) :
    Has members name shape ↔ ∃ a, Gives members name means a := by
  constructor
  · rintro ⟨v, found, own⟩
    obtain ⟨a, means_v⟩ := (h v).mp own
    exact ⟨a, v, found, means_v⟩
  · rintro ⟨a, v, found, own⟩
    exact ⟨v, found, (h v).mpr ⟨a, own⟩⟩

theorem Covers.mayHave (h : Covers shape means) :
    MayHave members name shape ↔ ∃ a, MayGive members name means a := by
  constructor
  · rintro (absent | present)
    · exact ⟨none, .absent absent⟩
    · obtain ⟨a, given⟩ := h.has.mp present
      exact ⟨some a, .present given⟩
  · rintro ⟨_, absent | given⟩
    · exact .inl absent
    · exact .inr (h.has.mpr ⟨_, given⟩)

end

theorem covers_label : Covers (IsObjectWith LabelShape) DescribesLabel := by
  intro v
  constructor
  · rintro ⟨members, rfl, shape⟩
    obtain ⟨file, hfile⟩ := covers_text.has.mp shape.file
    obtain ⟨start, hstart⟩ := covers_offset.has.mp shape.start
    obtain ⟨stop, hstop⟩ := covers_offset.has.mp shape.stop
    obtain ⟨message, hmessage⟩ := covers_text.mayHave.mp shape.message
    obtain ⟨style, hstyle⟩ := covers_style.mayHave.mp shape.style
    exact ⟨⟨style.getD .primary, file, start, stop, message⟩, members, style, rfl, hfile, hstart,
      hstop, hmessage, hstyle, rfl⟩
  · rintro ⟨l, members, style, rfl, file, start, stop, message, hstyle, _⟩
    exact ⟨members, rfl, covers_text.has.mpr ⟨_, file⟩, covers_offset.has.mpr ⟨_, start⟩,
      covers_offset.has.mpr ⟨_, stop⟩, covers_text.mayHave.mpr ⟨_, message⟩,
      covers_style.mayHave.mpr ⟨_, hstyle⟩⟩

theorem covers_diagnostic : Covers (IsObjectWith DiagnosticShape) DescribesDiagnostic := by
  intro v
  constructor
  · rintro ⟨members, rfl, shape⟩
    obtain ⟨message, hmessage⟩ := covers_text.has.mp shape.message
    obtain ⟨severity, hseverity⟩ := covers_severity.has.mp shape.severity
    obtain ⟨code, hcode⟩ := covers_text.mayHave.mp shape.code
    obtain ⟨labels, hlabels⟩ := covers_label.list.mayHave.mp shape.labels
    obtain ⟨notes, hnotes⟩ := covers_text.list.mayHave.mp shape.notes
    exact ⟨⟨severity, code, message, labels.getD [], notes.getD []⟩, members, labels, notes, rfl,
      hmessage, hseverity, hcode, hlabels, rfl, hnotes, rfl⟩
  · rintro ⟨d, members, labels, notes, rfl, message, severity, code, hlabels, _, hnotes, _⟩
    exact ⟨members, rfl, covers_text.has.mpr ⟨_, message⟩, covers_severity.has.mpr ⟨_, severity⟩,
      covers_text.mayHave.mpr ⟨_, code⟩, covers_text.list.mayHave.mpr ⟨_, hnotes⟩,
      covers_label.list.mayHave.mpr ⟨_, hlabels⟩⟩

theorem documented_iff {v : Json} : Documented v ↔ ∃ inputs, Describes v inputs := by
  constructor
  · rintro ⟨members, rfl, shape⟩
    obtain ⟨inputs, given⟩ := covers_diagnostic.list.has.mp shape
    exact ⟨inputs, members, rfl, given⟩
  · rintro ⟨inputs, members, rfl, given⟩
    exact ⟨members, rfl, covers_diagnostic.list.has.mpr ⟨inputs, given⟩⟩

/-! ## Writing a description -/

/-- Members among which only some fields are looked for: those of other names may stand
anywhere between them. -/
def Holds (names : List String) (fields members : Members) : Prop :=
  members.filter (fun member => names.contains member.1) = fields

/-- A field that may be left out if it has its default. -/
def defaulted (name : String) (v : Json) (shown : Bool) : Members :=
  if shown then [(name, v)] else []

def labelNames : List String := ["end", "file", "message", "start", "style"]

/-- The fields of a label, with or without a style that is the default one. -/
def labelFields (spelled : Bool) (l : LabelInput) : Members :=
  [("file", .text l.file), ("start", .number (l.start : Number)),
    ("end", .number (l.stop : Number))] ++
  (l.message.map fun message => ("message", .text message)).toList ++
  defaulted "style" (.text (styleWord l.style)) (spelled || l.style == .secondary)

def WritesLabel (l : LabelInput) (v : Json) : Prop :=
  ∃ spelled members, v = .object members ∧ Holds labelNames (labelFields spelled l) members

def diagnosticNames : List String := ["code", "labels", "message", "notes", "severity"]

/-- The fields of a diagnostic, with or without lists that are empty. -/
def diagnosticFields (spelledLabels spelledNotes : Bool) (d : DiagnosticInput)
    (labels : List Json) : Members :=
  [("severity", .text d.severity.name), ("message", .text d.message)] ++
  (d.code.map fun code => ("code", .text code)).toList ++
  defaulted "labels" (.list labels) (spelledLabels || !labels.isEmpty) ++
  defaulted "notes" (.list (d.notes.map .text)) (spelledNotes || !d.notes.isEmpty)

def WritesDiagnostic (d : DiagnosticInput) (v : Json) : Prop :=
  ∃ spelledLabels spelledNotes labels members, v = .object members ∧
    List.Forall₂ WritesLabel d.labels labels ∧
    Holds diagnosticNames (diagnosticFields spelledLabels spelledNotes d labels) members

/-- Inputs written as a value: every object with further members of any other names, and
every default written out or left out. -/
def Writes (inputs : List DiagnosticInput) (v : Json) : Prop :=
  ∃ diagnostics members, v = .object members ∧
    List.Forall₂ WritesDiagnostic inputs diagnostics ∧
    Holds ["diagnostics"] [("diagnostics", .list diagnostics)] members

theorem lookup_cons_eq {α : Type} (key : String) (a : α) (entries : List (String × α))
    (name : String) :
    ((key, a) :: entries).lookup name = if name = key then some a else entries.lookup name := by
  by_cases same : name = key
  · simp [same]
  · simp [List.lookup_cons, beq_false_of_ne same, same]

theorem lookup_filter {α : Type} (entries : List (String × α)) {p : String → Bool} {name : String}
    (own : p name = true) :
    (entries.filter fun entry => p entry.1).lookup name = entries.lookup name := by
  induction entries with
  | nil => rfl
  | cons entry entries ih =>
    obtain ⟨key, a⟩ := entry
    cases kept : p key with
    | true => simp only [List.filter_cons, kept, if_true, lookup_cons_eq, ih]
    | false =>
      have other : name ≠ key := fun same => by simp [same, kept] at own
      simp only [List.filter_cons, kept, Bool.false_eq_true, if_false, lookup_cons_eq, other, ih]

/-- Members of other names do not count. -/
theorem Holds.member? {names : List String} {fields members : Members}
    (h : Holds names fields members) (name : String) (own : names.contains name = true) :
    Json.member? members name = Json.member? fields name := by
  rw [← h, Json.member?, Json.member?, ← List.filter_reverse]
  exact (lookup_filter members.reverse own).symm

@[simp]
theorem member?_append (fields others : Members) (name : String) :
    Json.member? (fields ++ others) name =
      (Json.member? others name).or (Json.member? fields name) := by
  rw [Json.member?, List.reverse_append, List.lookup_append]
  rfl

@[simp]
theorem member?_nil (name : String) : Json.member? [] name = none := rfl

@[simp]
theorem member?_cons (key : String) (v : Json) (fields : Members) (name : String) :
    Json.member? ((key, v) :: fields) name =
      (Json.member? fields name).or (if name = key then some v else none) := by
  rw [Json.member?, List.reverse_cons, List.lookup_append, lookup_cons_eq]
  rfl

@[simp]
theorem member?_toList {α : Type} (o : Option α) (f : α → Json) (key name : String) :
    Json.member? (o.map fun a => (key, f a)).toList name =
      if name = key then o.map f else none := by
  cases o with
  | none => simp [member?_nil]
  | some a => simp [member?_cons, member?_nil]

@[simp]
theorem member?_defaulted (v : Json) (shown : Bool) (key name : String) :
    Json.member? (defaulted key v shown) name =
      if name = key then (if shown then some v else none) else none := by
  cases shown <;> simp [defaulted, member?_cons, member?_nil]

/-- A field that is written unless it has its default gives its value or the default. -/
theorem mayGive_defaulted {α : Type} {members : Members} {name : String}
    (means : Json → α → Prop) {v : Json} {shown : Bool} {a fallback : α} (own : means v a)
    (found : Json.member? members name = if shown then some v else none)
    (left_out : shown = false → a = fallback) :
    ∃ given, MayGive members name means given ∧ a = given.getD fallback := by
  cases shown with
  | true => exact ⟨some a, .present ⟨v, found, own⟩, rfl⟩
  | false => exact ⟨none, .absent found, left_out rfl⟩

theorem mayGive_text {members : Members} {name : String} {o : Option String}
    (found : Json.member? members name = o.map .text) :
    MayGive members name DescribesText o := by
  cases o with
  | none => exact .absent found
  | some text => exact .present ⟨.text text, found, rfl⟩

theorem describesLabel_of_writes {l : LabelInput} {v : Json} (h : WritesLabel l v) :
    DescribesLabel v l := by
  obtain ⟨spelled, members, rfl, holds⟩ := h
  have file : Json.member? members "file" = some (.text l.file) := by
    simp [holds.member? "file" (by decide), labelFields]
  have start : Json.member? members "start" = some (.number (l.start : Number)) := by
    simp [holds.member? "start" (by decide), labelFields]
  have stop : Json.member? members "end" = some (.number (l.stop : Number)) := by
    simp [holds.member? "end" (by decide), labelFields]
  have message : Json.member? members "message" = l.message.map .text := by
    simp [holds.member? "message" (by decide), labelFields]
  have style : Json.member? members "style" =
      if spelled || l.style == .secondary then some (.text (styleWord l.style)) else none := by
    simp [holds.member? "style" (by decide), labelFields]
  have primary : (spelled || l.style == .secondary) = false → l.style = .primary := by
    cases l.style <;> simp
  obtain ⟨own, given, kept⟩ :=
    mayGive_defaulted DescribesStyle rfl style primary
  exact ⟨members, own, rfl, ⟨_, file, rfl⟩, ⟨_, start, rfl⟩, ⟨_, stop, rfl⟩,
    mayGive_text message, given, kept⟩

theorem forall₂_describesText (texts : List String) :
    List.Forall₂ DescribesText (texts.map .text) texts := by
  induction texts with
  | nil => exact .nil
  | cons text texts ih => exact .cons rfl ih

theorem forall₂_swap {α β : Type} {p : α → β → Prop} {q : β → α → Prop}
    (each : ∀ a b, p a b → q b a) {as : List α} {bs : List β} (h : List.Forall₂ p as bs) :
    List.Forall₂ q bs as := by
  induction h with
  | nil => exact .nil
  | cons own _ ih => exact .cons (each _ _ own) ih

theorem describesDiagnostic_of_writes {d : DiagnosticInput} {v : Json}
    (h : WritesDiagnostic d v) : DescribesDiagnostic v d := by
  obtain ⟨spelledLabels, spelledNotes, labels, members, rfl, written, holds⟩ := h
  have message : Json.member? members "message" = some (.text d.message) := by
    simp [holds.member? "message" (by decide), diagnosticFields]
  have severity : Json.member? members "severity" = some (.text d.severity.name) := by
    simp [holds.member? "severity" (by decide), diagnosticFields]
  have code : Json.member? members "code" = d.code.map .text := by
    simp [holds.member? "code" (by decide), diagnosticFields]
  have labels_found : Json.member? members "labels" =
      if spelledLabels || !labels.isEmpty then some (.list labels) else none := by
    simp [holds.member? "labels" (by decide), diagnosticFields]
  have notes_found : Json.member? members "notes" =
      if spelledNotes || !d.notes.isEmpty then some (.list (d.notes.map .text)) else none := by
    simp [holds.member? "notes" (by decide), diagnosticFields]
  have no_labels : (spelledLabels || !labels.isEmpty) = false → d.labels = [] := by
    intro hidden
    have none_written : labels = [] := by simp_all
    exact List.forall₂_nil_right_iff.mp (none_written ▸ written)
  have no_notes : (spelledNotes || !d.notes.isEmpty) = false → d.notes = [] := by
    simp
  have described := forall₂_swap (fun _ _ => describesLabel_of_writes) written
  obtain ⟨ownLabels, givenLabels, keptLabels⟩ :=
    mayGive_defaulted (DescribesList DescribesLabel) ⟨labels, rfl, described⟩
      labels_found no_labels
  obtain ⟨ownNotes, givenNotes, keptNotes⟩ :=
    mayGive_defaulted (DescribesList DescribesText)
      ⟨_, rfl, forall₂_describesText d.notes⟩ notes_found no_notes
  exact ⟨members, ownLabels, ownNotes, rfl, ⟨_, message, rfl⟩, ⟨_, severity, rfl⟩,
    mayGive_text code, givenLabels, keptLabels, givenNotes, keptNotes⟩

theorem describes_of_writes {inputs : List DiagnosticInput} {v : Json} (h : Writes inputs v) :
    Describes v inputs := by
  obtain ⟨diagnostics, members, rfl, written, holds⟩ := h
  have found : Json.member? members "diagnostics" = some (.list diagnostics) := by
    simp [holds.member? "diagnostics" (by decide)]
  have described := forall₂_swap (fun _ _ => describesDiagnostic_of_writes) written
  exact ⟨members, rfl, _, found, diagnostics, rfl, described⟩

def encodeLabel (spelled : Bool) (l : LabelInput) : Json := .object (labelFields spelled l)

def encodeDiagnostic (spelled : Bool) (d : DiagnosticInput) : Json :=
  .object (diagnosticFields spelled spelled d (d.labels.map (encodeLabel spelled)))

/-- Inputs as a value without other members, with all defaults written out or none. -/
def encode (spelled : Bool) (inputs : List DiagnosticInput) : Json :=
  .object [("diagnostics", .list (inputs.map (encodeDiagnostic spelled)))]

theorem forall₂_map_self {α β : Type} {p : α → β → Prop} {f : α → β} (each : ∀ a, p a (f a))
    (as : List α) : List.Forall₂ p as (as.map f) := by
  induction as with
  | nil => exact .nil
  | cons a as ih => exact .cons (each a) ih

theorem key_of_mem_toList {α : Type} {o : Option α} {f : α → Json} {key : String}
    {field : String × Json} (h : field ∈ (o.map fun a => (key, f a)).toList) : field.1 = key := by
  cases o with
  | none => cases h
  | some a => rw [List.mem_singleton.mp h]

theorem key_of_mem_defaulted {key : String} {v : Json} {shown : Bool} {field : String × Json}
    (h : field ∈ defaulted key v shown) : field.1 = key := by
  cases shown with
  | false => cases h
  | true => rw [List.mem_singleton.mp h]

theorem labelFields_named (spelled : Bool) (l : LabelInput) :
    ∀ field ∈ labelFields spelled l, labelNames.contains field.1 = true := by
  intro field written
  simp only [labelFields, List.mem_append] at written
  obtain (fixed | message) | style := written
  · simp only [List.mem_cons, List.not_mem_nil, or_false] at fixed
    obtain rfl | rfl | rfl := fixed <;> rfl
  · rw [key_of_mem_toList message]
    rfl
  · rw [key_of_mem_defaulted style]
    rfl

theorem diagnosticFields_named (spelledLabels spelledNotes : Bool) (d : DiagnosticInput)
    (labels : List Json) : ∀ field ∈ diagnosticFields spelledLabels spelledNotes d labels,
      diagnosticNames.contains field.1 = true := by
  intro field written
  simp only [diagnosticFields, List.mem_append] at written
  obtain ((fixed | code) | labels) | notes := written
  · simp only [List.mem_cons, List.not_mem_nil, or_false] at fixed
    obtain rfl | rfl := fixed <;> rfl
  · rw [key_of_mem_toList code]
    rfl
  · rw [key_of_mem_defaulted labels]
    rfl
  · rw [key_of_mem_defaulted notes]
    rfl

theorem writesLabel_encode (spelled : Bool) (l : LabelInput) :
    WritesLabel l (encodeLabel spelled l) :=
  ⟨spelled, _, rfl, List.filter_eq_self.mpr (labelFields_named spelled l)⟩

theorem writesDiagnostic_encode (spelled : Bool) (d : DiagnosticInput) :
    WritesDiagnostic d (encodeDiagnostic spelled d) :=
  ⟨spelled, spelled, _, _, rfl, forall₂_map_self (writesLabel_encode spelled) _,
    List.filter_eq_self.mpr (diagnosticFields_named spelled spelled d _)⟩

theorem writes_encode (spelled : Bool) (inputs : List DiagnosticInput) :
    Writes inputs (encode spelled inputs) :=
  ⟨_, _, rfl, forall₂_map_self (writesDiagnostic_encode spelled) inputs, rfl⟩

theorem parseInput_eq_ok_iff {text : String} {inputs : List DiagnosticInput} :
    parseInput text = .ok inputs ↔ ∃ v, Json.ofText text = .ok v ∧ Describes v inputs := by
  unfold parseInput
  cases Json.ofText text with
  | error fault => simp
  | ok v => simp [document_eq_ok_iff]

/-- Exactly the documented values are accepted, and each is read as what it describes; so what
is written in the format is read back, whatever defaults and other members it is written
with. -/
theorem input_format_exact :
    (∀ text inputs, parseInput text = .ok inputs ↔
      ∃ v, Json.ofText text = .ok v ∧ Describes v inputs) ∧
    (∀ v, (∃ inputs, document v = .ok inputs) ↔ Documented v) ∧
    (∀ v inputs, document v = .ok inputs ↔ Describes v inputs) ∧
    (∀ inputs v, Writes inputs v → document v = .ok inputs ∧
      ∀ text, Json.ofText text = .ok v → parseInput text = .ok inputs) ∧
    ∀ inputs spelled, Writes inputs (encode spelled inputs) := by
  refine ⟨fun _ _ => parseInput_eq_ok_iff, fun v => ?_, fun _ _ => document_eq_ok_iff, ?_, ?_⟩
  · simp only [document_eq_ok_iff, documented_iff]
  · intro inputs v written
    have described := describes_of_writes written
    refine ⟨document_eq_ok_iff.mpr described, ?_⟩
    intro text valid
    exact parseInput_eq_ok_iff.mpr ⟨v, valid, described⟩
  · intro inputs spelled
    exact writes_encode spelled inputs

/-- A label without a style is primary, and a member of another name may be null. -/
example : (parseInput ("\x7b\"diagnostics\": [\x7b\"severity\": \"note\", \"message\": \"seen\"," ++
    "\"hint\": null, \"labels\": [\x7b\"file\": \"a\", \"start\": -0, \"end\": 1e0\x7d]" ++
    "\x7d]\x7d")).toOption =
    some [⟨.note, none, "seen", [⟨.primary, "a", 0, 1, none⟩], []⟩] := by
  decide +kernel

end Excerpt.Schema
