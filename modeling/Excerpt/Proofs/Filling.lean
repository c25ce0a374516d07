import Excerpt.Command.Problem
import Excerpt.Proofs.Resolution
import Excerpt.Proofs.Text.Template

/-! Filling a template. All its placeholders are filled at once, so what is put in for one of
them is not read again; a template may be filled in parts, and what surrounds a placeholder
has no part in how it is filled. -/
namespace Excerpt

namespace Text

/-- A text, if there is one that long. -/
def fitting? (text : String) : Except TextFault String :=
  if units16 text ≤ longest then .ok text else .error .tooLong

theorem fitting?_eq_ok_iff {text found : String} :
    fitting? text = .ok found ↔ units16 text ≤ longest ∧ text = found := by
  unfold fitting?
  split <;> simp_all

theorem fitting?_of_long {text : String} (h : ¬units16 text ≤ longest) :
    fitting? text = .error .tooLong := if_neg h

theorem units16_append (a b : String) : units16 (a ++ b) = units16 a + units16 b := by
  rw [units16, String.toList_append, unitsOf_append]
  rfl

theorem units16_le_join {text : String} {texts : List String} (h : text ∈ texts) :
    units16 text ≤ units16 (String.join texts) := by
  obtain ⟨before, after, rfl⟩ := List.append_of_mem h
  rw [String.join_append, String.join_cons, units16_append, units16_append]
  omega

/-- Texts fit apart if they fit together. -/
theorem fitting?_join (texts : List String) :
    fitting? (String.join texts) = (do
      let each ← texts.mapM fitting?
      fitting? (String.join each)) := by
  by_cases whole : units16 (String.join texts) ≤ longest
  · have each : texts.mapM fitting? = .ok texts :=
      mapM_eq_ok_iff.mpr (List.forall₂_same.mpr fun text own =>
        fitting?_eq_ok_iff.mpr ⟨(units16_le_join own).trans whole, rfl⟩)
    rw [each]
    rfl
  · rw [fitting?_of_long whole]
    symm
    cases each : texts.mapM fitting? with
    | error fault =>
      obtain ⟨_, text, _, _, _, own⟩ := exists_first_of_mapM_eq_error each
      by_cases fits : units16 text ≤ longest
      · rw [fitting?_eq_ok_iff.mpr ⟨fits, rfl⟩] at own
        cases own
      · rw [fitting?_of_long fits] at own
        exact own ▸ rfl
    | ok found =>
      have same : texts = found := List.forall₂_eq_eq_eq ▸
        (mapM_eq_ok_iff.mp each).imp fun _ _ own => (fitting?_eq_ok_iff.mp own).2
      exact same ▸ fitting?_of_long whole

end Text

namespace Template

variable (arguments : List (String × Argument))

theorem fillTemplate?_eq_fitting? (template : String) :
    fillTemplate? template arguments = Text.fitting? (fillTemplate template arguments) :=
  fillTemplate?_eq template arguments

theorem toList_fillTemplate (template : String) :
    (fillTemplate template arguments).toList =
      (pieces template.toList).flatMap (Piece.fill arguments) :=
  String.toList_ofList

/-- The parts of a template are filled apart where no placeholder is cut. -/
theorem fillTemplate_join {parts : List String} (h : Uncut (parts.map String.toList)) :
    fillTemplate (String.join parts) arguments =
      String.join (parts.map (fillTemplate · arguments)) := by
  have whole : (String.join parts).toList = (parts.map String.toList).flatten := by
    rw [String.toList_join, List.flatMap_def]
  refine String.toList_injective ?_
  rw [toList_fillTemplate, whole, pieces_flatten h, List.flatMap_map, List.flatMap_assoc,
    String.toList_join, List.flatMap_map]
  exact List.flatMap_congr fun part _ => (toList_fillTemplate arguments part).symm

theorem fillTemplate?_join {parts : List String} (h : Uncut (parts.map String.toList)) :
    fillTemplate? (String.join parts) arguments = (do
      let texts ← parts.mapM (fillTemplate? · arguments)
      Text.fitting? (String.join texts)) := by
  rw [fillTemplate?_eq_fitting?, fillTemplate_join arguments h, Text.fitting?_join, List.mapM_map]
  simp only [fillTemplate?_eq_fitting?]
  rfl

/-- A placeholder, wherever it stands, is filled with its argument, and what is around it is
filled as if it stood alone. -/
theorem fillTemplate_around (before after : String) {key : String} (word : IsWord key.toList)
    {argument : Argument} (given : arguments.lookup key = some argument) :
    fillTemplate (before ++ ("\x7b" ++ key ++ "\x7d") ++ after) arguments =
      fillTemplate before arguments ++ argument.toText ++ fillTemplate after arguments := by
  refine String.toList_injective ?_
  have own : ("\x7b" ++ key ++ "\x7d").toList = '\x7b' :: (key.toList ++ ['\x7d']) := by simp
  have ahead : ¬Cuts before.toList ('\x7b' :: (key.toList ++ '\x7d' :: after.toList)) :=
    not_cuts_of_brace _ _
  have split : (before ++ ("\x7b" ++ key ++ "\x7d") ++ after).toList =
      before.toList ++ '\x7b' :: (key.toList ++ '\x7d' :: after.toList) := by
    simp [own]
  have filled : (Piece.placeholder key.toList).fill arguments = argument.toText.toList := by
    rw [Piece.fill, String.ofList_toList, given]
  have read := pieces_placeholder word after.toList
  rw [Piece.source, List.cons_append, List.append_assoc, List.singleton_append] at read
  rw [toList_fillTemplate, split, pieces_append ahead, read, List.flatMap_append,
    List.flatMap_cons, filled, String.toList_append, String.toList_append, toList_fillTemplate,
    toList_fillTemplate, List.append_assoc]

/-- A text without an opening brace has no placeholders. -/
theorem fillTemplate_of_free {template : String} (free : '\x7b' ∉ template.toList) :
    fillTemplate template arguments = template := by
  have literal (cs : List Char) (free : '\x7b' ∉ cs) :
      (pieces cs).flatMap (Piece.fill arguments) = cs := by
    induction cs with
    | nil => rw [pieces, List.flatMap_nil]
    | cons c cs ih =>
      rw [List.mem_cons, not_or] at free
      rw [pieces_literal fun key opens => free.1 opens.brace.symm, List.flatMap_cons, ih free.2]
      rfl
  refine String.toList_injective ?_
  rw [toList_fillTemplate, literal _ free]

omit arguments

/-- A template with one placeholder. -/
theorem fillTemplate_one {template before key after : String}
    (split : template = before ++ ("\x7b" ++ key ++ "\x7d") ++ after) (word : IsWord key.toList)
    (free : '\x7b' ∉ before.toList ∧ '\x7b' ∉ after.toList) (text : String) :
    fillTemplate template [(key, .text text)] = before ++ text ++ after := by
  rw [split, fillTemplate_around _ before after word List.lookup_cons_self,
    fillTemplate_of_free _ free.1, fillTemplate_of_free _ free.2]
  rfl

/-- A template with two placeholders: what is put in for the first is not read again. -/
theorem fillTemplate_two {template before key between other after : String}
    (split : template = before ++ ("\x7b" ++ key ++ "\x7d") ++
      (between ++ ("\x7b" ++ other ++ "\x7d") ++ after))
    (word : IsWord key.toList ∧ IsWord other.toList) (differ : (other == key) = false)
    (free : '\x7b' ∉ before.toList ∧ '\x7b' ∉ between.toList ∧ '\x7b' ∉ after.toList)
    (argument : Argument) (text : String) :
    fillTemplate template [(key, argument), (other, .text text)] =
      before ++ argument.toText ++ (between ++ text ++ after) := by
  have second : [(key, argument), (other, .text text)].lookup other = some (.text text) := by
    rw [List.lookup_cons, differ]
    exact List.lookup_cons_self
  rw [split, fillTemplate_around _ before _ word.1 List.lookup_cons_self,
    fillTemplate_around _ between after word.2 second, fillTemplate_of_free _ free.1,
    fillTemplate_of_free _ free.2.1, fillTemplate_of_free _ free.2.2]
  rfl

end Template

/-- What a problem says: its own words, with what is told about it as it is. -/
def Problem.wording : Problem → String
  | colorMode mode => "unknown color mode \"" ++ mode ++ "\""
  | option reason => "invalid option: " ++ reason
  | unreadable path fault =>
    if fault.code? = some "ENOENT" then "file not found: " ++ path
    else "cannot read file: " ++ fault.message
  | input path reason => "invalid input at " ++ path ++ ": " ++ reason
  | render index reason => "cannot render diagnostic #" ++ index.toText ++ ": " ++ reason

namespace Problem

open Template

/-- Whatever is told about a problem is shown as it is, also where it looks like a template. -/
theorem message_diagnostic (p : Problem) : p.diagnostic.message = p.wording := by
  cases p with
  | colorMode mode =>
    have split : Catalog.unknownColorMode.message =
        "unknown color mode \"" ++ ("\x7b" ++ "mode" ++ "\x7d") ++ "\"" := by decide
    exact fillTemplate_one split (by decide) (by decide) mode
  | option reason =>
    have split : Catalog.invalidOption.message =
        "invalid option: " ++ ("\x7b" ++ "reason" ++ "\x7d") ++ "" := by decide
    exact (fillTemplate_one split (by decide) (by decide) reason).trans String.append_empty
  | unreadable path fault =>
    by_cases missing : fault.code? = some "ENOENT"
    · have own : (unreadable path fault).diagnostic =
          Catalog.fileNotFound.diagnostic (some [("path", .text path)]) := if_pos missing
      have words : (unreadable path fault).wording = "file not found: " ++ path := if_pos missing
      have split : Catalog.fileNotFound.message =
          "file not found: " ++ ("\x7b" ++ "path" ++ "\x7d") ++ "" := by decide
      rw [own, words]
      exact (fillTemplate_one split (by decide) (by decide) path).trans String.append_empty
    · have own : (unreadable path fault).diagnostic =
          Catalog.unreadableFile.diagnostic (some [("reason", .text fault.message)]) :=
        if_neg missing
      have words : (unreadable path fault).wording = "cannot read file: " ++ fault.message :=
        if_neg missing
      have split : Catalog.unreadableFile.message =
          "cannot read file: " ++ ("\x7b" ++ "reason" ++ "\x7d") ++ "" := by decide
      rw [own, words]
      exact (fillTemplate_one split (by decide) (by decide) fault.message).trans
        String.append_empty
  | input path reason =>
    have split : Catalog.invalidInput.message = "invalid input at " ++
        ("\x7b" ++ "path" ++ "\x7d") ++ (": " ++ ("\x7b" ++ "reason" ++ "\x7d") ++ "") := by decide
    have filled := fillTemplate_two split (by decide) (by decide) (by decide) (.text path) reason
    rw [String.append_empty, ← String.append_assoc] at filled
    exact filled
  | render index reason =>
    have split : Catalog.renderFailure.message = "cannot render diagnostic #" ++
        ("\x7b" ++ "index" ++ "\x7d") ++ (": " ++ ("\x7b" ++ "reason" ++ "\x7d") ++ "") := by decide
    have filled := fillTemplate_two split (by decide) (by decide) (by decide) (.number index) reason
    rw [String.append_empty, ← String.append_assoc] at filled
    exact filled

end Problem

/-- A template is filled at once. It is read in one way: its placeholders are the words in
braces from left to right, and every other character stands for itself. The filled template
is what the pieces become, each placeholder its argument if it has one, all else what it is;
it is refused only if it is too long for a text. A template that is cut where it has no
placeholder can be filled in parts. A placeholder with an argument is filled with it
whatever stands around it, and neither the argument nor what it makes with its neighbours is
read again; so whatever is told about a problem is shown as it is. -/
theorem template_filled_at_once (template : String)
    (arguments : List (String × Template.Argument)) :
    (∃! pieces, Template.ReadAs template.toList pieces) ∧
    (∀ pieces, Template.ReadAs template.toList pieces →
      fillTemplate? template arguments =
        Text.fitting? (String.ofList (pieces.flatMap (Template.Piece.fill arguments)))) ∧
    (∀ parts, template = String.join parts → Template.Uncut (parts.map String.toList) →
      fillTemplate? template arguments = do
        let texts ← parts.mapM (fillTemplate? · arguments)
        Text.fitting? (String.join texts)) ∧
    (∀ before key after argument, template = before ++ ("\x7b" ++ key ++ "\x7d") ++ after →
      Template.IsWord key.toList → arguments.lookup key = some argument →
      fillTemplate template arguments =
        fillTemplate before arguments ++ argument.toText ++ fillTemplate after arguments) ∧
    ∀ problem : Problem, problem.diagnostic.message = problem.wording := by
  refine ⟨?read, ?filled, ?parts, ?around, Problem.message_diagnostic⟩
  case read =>
    exact ⟨_, Template.readAs_pieces _, fun _ other => other.eq_pieces.symm⟩
  case filled =>
    intro pieces read
    rw [Template.fillTemplate?_eq_fitting?, fillTemplate, read.eq_pieces]
  case parts =>
    rintro parts rfl uncut
    exact Template.fillTemplate?_join arguments uncut
  case around =>
    rintro before key after argument rfl word given
    exact Template.fillTemplate_around arguments before after word given

/-! ## Arguments that look like templates, and arguments that are too long -/

namespace Sample

def braces : String := "\x7b\x7ba\x7d\x7bb\x7d \x7bc"

def bracedArguments : List (String × Template.Argument) :=
  [("a", .text "\x7bb\x7d$&"), ("b", .number (2 : Nat))]

def bracePieces : List Template.Piece :=
  [.literal '\x7b', .placeholder ['a'], .placeholder ['b'], .literal ' ', .literal '\x7b',
    .literal 'c']

theorem braces_read : Template.ReadAs braces.toList bracePieces :=
  Template.pieces_eq_iff.mp (by decide +kernel)

/-- A template of placeholders only. -/
def repeated (count : Nat) : String := String.join (List.replicate count "\x7ba\x7d")

/-- An argument of so many characters. -/
def longArgument (length : Nat) : List (String × Template.Argument) :=
  [("a", .text (String.ofList (List.replicate length 'x')))]

theorem pieces_repeated (count : Nat) :
    Template.pieces (repeated count).toList = List.replicate count (.placeholder ['a']) := by
  rw [repeated, String.toList_join]
  induction count with
  | zero => rw [List.replicate_zero, List.flatMap_nil, Template.pieces, List.replicate_zero]
  | succ count ih =>
    have word : Template.IsWord ['a'] := by decide
    rw [List.replicate_succ, List.flatMap_cons, List.replicate_succ, ← ih]
    exact Template.pieces_placeholder word _

theorem units_repeated (count length : Nat) :
    Text.units16 (fillTemplate (repeated count) (longArgument length)) = count * length := by
  have filled : (Template.Piece.placeholder ['a']).fill (longArgument length) =
      List.replicate length 'x' :=
    String.toList_ofList
  rw [Text.units16, Template.toList_fillTemplate, pieces_repeated, List.flatMap_replicate, filled,
    List.flatten_replicate_replicate, Text.unitsOf_replicate]
  exact Nat.mul_one _

end Sample

theorem template_filled_at_once_sample :
    Template.ReadAs Sample.braces.toList Sample.bracePieces ∧
      fillTemplate? Sample.braces Sample.bracedArguments = .ok "\x7b\x7bb\x7d$&2 \x7bc" := by
  obtain ⟨_, filled, _⟩ := template_filled_at_once Sample.braces Sample.bracedArguments
  exact ⟨Sample.braces_read, (filled _ Sample.braces_read).trans
    (Text.fitting?_eq_ok_iff.mpr ⟨by decide +kernel, by decide +kernel⟩)⟩

/-- A short template and a short argument can make a text that is too long. -/
theorem repeated_argument_not_filled :
    fillTemplate? (Sample.repeated 13500) (Sample.longArgument 40000) = .error .tooLong := by
  rw [Template.fillTemplate?_eq_fitting?]
  refine Text.fitting?_of_long ?_
  rw [Sample.units_repeated]
  decide

end Excerpt
