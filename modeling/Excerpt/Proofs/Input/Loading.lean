import Excerpt.Command.Render
import Excerpt.Proofs.Resolution
import Excerpt.Proofs.Sorting

/-! Labels point at the files they name. The files of an input are read once each, in the
order in which its labels name them first; a source gets its place among them as its id, so
every label of the input finds its own file in the store, and none is missing. -/
namespace Excerpt

/-! ## First uses -/

/-- The file of every label, label by label. -/
def namedFiles (inputs : List DiagnosticInput) : List String :=
  inputs.flatMap fun input => input.labels.map LabelInput.file

theorem mem_namedFiles {inputs : List DiagnosticInput} {path : String} :
    path ∈ namedFiles inputs ↔ ∃ input ∈ inputs, ∃ l ∈ input.labels, l.file = path := by
  simp [namedFiles]

theorem sourcePaths_ordered (inputs : List DiagnosticInput) :
    (sourcePaths inputs).Pairwise fun a b =>
      (namedFiles inputs).idxOf a < (namedFiles inputs).idxOf b :=
  eraseDups_ordered (namedFiles inputs)

theorem nodup_sourcePaths (inputs : List DiagnosticInput) : (sourcePaths inputs).Nodup :=
  nodup_eraseDups (namedFiles inputs)

theorem mem_sourcePaths {inputs : List DiagnosticInput} {path : String} :
    path ∈ sourcePaths inputs ↔ ∃ input ∈ inputs, ∃ l ∈ input.labels, l.file = path :=
  List.mem_eraseDups.trans mem_namedFiles

/-! ## Sources by path -/

namespace SourceTexts

variable {sources : SourceTexts} {path text : String} {id : Nat}

def paths (sources : SourceTexts) : List String := sources.map (·.1)

theorem id?_eq_none_iff : sources.id? path = none ↔ path ∉ sources.paths := by
  simp only [id?, paths, List.findIdx?_eq_none_iff, List.mem_map, beq_eq_false_iff_ne, not_exists,
    not_and]

/-- Among paths that differ each source has its own place as its id. -/
theorem id?_eq_some_iff (distinct : sources.paths.Nodup) :
    sources.id? path = some id ↔ ∃ text, sources[id]? = some (path, text) := by
  unfold id?
  rw [List.findIdx?_eq_some_iff_getElem]
  constructor
  · rintro ⟨inside, own, _⟩
    have same : sources[id].1 = path := by simpa using own
    exact ⟨sources[id].2, List.getElem?_eq_some_iff.mpr ⟨inside, by rw [← same]⟩⟩
  · rintro ⟨text, found⟩
    obtain ⟨inside, own⟩ := List.getElem?_eq_some_iff.mp found
    refine ⟨inside, by simp [own], ?_⟩
    intro earlier before same
    have twice : sources.paths[earlier]? = sources.paths[id]? := by
      have own_earlier : sources[earlier].1 = path := by simpa using same
      simp [paths, found, List.getElem?_eq_getElem (Nat.lt_trans before inside), own_earlier]
    have length : earlier < sources.paths.length := by
      rw [paths, List.length_map]
      exact Nat.lt_trans before inside
    exact absurd ((List.getElem?_inj length distinct).mp twice) (Nat.ne_of_lt before)

theorem lookup_of_mem (distinct : sources.paths.Nodup) (member : (path, text) ∈ sources) :
    sources.lookup path = some text := by
  induction sources with
  | nil => cases member
  | cons entry sources ih =>
    obtain ⟨fresh, rest⟩ := List.nodup_cons.mp distinct
    rcases List.mem_cons.mp member with rfl | later
    · exact List.lookup_cons_self
    · have other : path ≠ entry.1 := by
        rintro rfl
        exact fresh (List.mem_map.mpr ⟨_, later, rfl⟩)
      rw [List.lookup_cons, beq_eq_false_iff_ne.mpr other]
      exact ih rest later

end SourceTexts

/-- The files of a store are the sources it was made of, by their ids. -/
theorem Store.known_ofList {files : List (String × String)} {id : Nat} {name source : String}
    (found : files[id]? = some (name, source)) :
    (ofList files).sources.name (id : Number) = some name ∧
      (ofList files).sources.source (id : Number) = some source := by
  have file : (ofList files).file? (id : Number) = some (.ofText name source) := by
    simp [file?, ofList, found]
  simp [sources, file]

/-! ## What is carried over -/

/-- A label that points at the file it names: by the id of the source with this path, under
which the store has that path and its text. -/
structure LabelInput.Carried (sources : SourceTexts) (store : Store) (l : LabelInput)
    (label : Label) : Prop where
  style : label.style = l.style
  start : label.span.start = (l.start : Number)
  stop : label.span.stop = (l.stop : Number)
  message : label.message = l.message
  file : ∃ (id : Nat) (text : String), sources[id]? = some (l.file, text) ∧
    label.span.file = (id : Number) ∧ sources.lookup l.file = some text ∧
    store.sources.name label.span.file = some l.file ∧
    store.sources.source label.span.file = some text

structure DiagnosticInput.Carried (sources : SourceTexts) (store : Store)
    (input : DiagnosticInput) (d : Diagnostic) : Prop where
  severity : d.severity = input.severity
  code : d.code = input.code
  message : d.message = input.message
  notes : d.notes = input.notes
  labels : List.Forall₂ (LabelInput.Carried sources store) input.labels d.labels

/-- A label without a source, when every label in front of it has one. -/
structure FirstMissing (inputs : List DiagnosticInput) (sources : SourceTexts) (i j : Nat)
    (l : LabelInput) : Prop where
  here : ∃ input, inputs[i]? = some input ∧ input.labels[j]? = some l
  missing : l.file ∉ sources.paths
  first : ∀ i' j' input l', inputs[i']? = some input → input.labels[j']? = some l' →
    i' < i ∨ i' = i ∧ j' < j → l'.file ∈ sources.paths

/-- The items in front of one that is picked from a numbered list. -/
theorem of_zipIdx_eq_append {α : Type} {xs : List α} {before after : List (α × Nat)} {x : α}
    {i : Nat} (split : xs.zipIdx = before ++ (x, i) :: after) :
    xs[i]? = some x ∧ ∀ k y, k < i → xs[k]? = some y → (y, k) ∈ before := by
  have numbered (k : Nat) : xs.zipIdx[k]? = xs[k]?.map (·, k) := by
    rw [List.getElem?_zipIdx, Nat.zero_add]
  have own := numbered before.length
  rw [split, List.getElem?_append_right (Nat.le_refl _), Nat.sub_self, List.getElem?_cons_zero,
    eq_comm, Option.map_eq_some_iff] at own
  obtain ⟨y, found, same⟩ := own
  cases same
  refine ⟨found, fun k y earlier inside => ?_⟩
  have other := numbered k
  rw [split, List.getElem?_append_left earlier, inside] at other
  exact List.mem_of_getElem? other

namespace Input

variable {inputs : List DiagnosticInput} {sources : SourceTexts}

theorem label_eq_ok_iff (distinct : sources.paths.Nodup) {index labelIndex : Nat}
    {l : LabelInput} {made : Label} :
    label sources index labelIndex l = .ok made ↔ l.Carried sources (.ofList sources) made := by
  unfold label
  constructor
  · intro h
    cases place : sources.id? l.file with
    | none => simp [place] at h
    | some id =>
      obtain ⟨text, found⟩ := (SourceTexts.id?_eq_some_iff distinct).mp place
      simp only [place, Except.ok.injEq] at h
      subst h
      have text_own := SourceTexts.lookup_of_mem distinct (List.mem_of_getElem? found)
      exact ⟨rfl, rfl, rfl, rfl, id, text, found, rfl, text_own,
        Store.known_ofList found⟩
  · rintro ⟨style, start, stop, message, id, text, found, file, _⟩
    have place := (SourceTexts.id?_eq_some_iff distinct).mpr ⟨text, found⟩
    obtain ⟨_, ⟨_, _, _⟩, _⟩ := made
    simp only at style start stop message file
    subst style start stop message file
    rw [place]

theorem exists_label_iff {index labelIndex : Nat} {l : LabelInput} :
    (∃ made, label sources index labelIndex l = .ok made) ↔ l.file ∈ sources.paths := by
  unfold label
  cases place : sources.id? l.file with
  | none => simp [SourceTexts.id?_eq_none_iff.mp place]
  | some id =>
    have inside : l.file ∈ sources.paths := by
      rw [← not_not (a := l.file ∈ sources.paths), ← SourceTexts.id?_eq_none_iff, place]
      exact Option.some_ne_none id
    simp [inside]

theorem label_eq_error {index labelIndex : Nat} {l : LabelInput} {e : InputError}
    (h : label sources index labelIndex l = .error e) :
    l.file ∉ sources.paths ∧ e = ⟨path index labelIndex, .notLoaded l.file⟩ := by
  unfold label at h
  cases place : sources.id? l.file with
  | none =>
    simp only [place, Except.error.injEq] at h
    exact ⟨SourceTexts.id?_eq_none_iff.mp place, h.symm⟩
  | some id => simp [place] at h

theorem diagnostic_eq_ok_iff (distinct : sources.paths.Nodup) {index : Nat}
    {input : DiagnosticInput} {d : Diagnostic} :
    diagnostic sources index input = .ok d ↔ input.Carried sources (.ofList sources) d := by
  have each : ∀ labels, List.Forall₂ (fun numbered made =>
      label sources index numbered.2 numbered.1 = .ok made) input.labels.zipIdx labels ↔
        List.Forall₂ (LabelInput.Carried sources (.ofList sources)) input.labels labels := by
    intro labels
    simp only [label_eq_ok_iff distinct]
    exact forall₂_zipIdx
  unfold diagnostic
  rw [bind_eq_ok_iff]
  constructor
  · rintro ⟨labels, made, own⟩
    cases own
    exact ⟨rfl, rfl, rfl, rfl, (each labels).mp (mapM_eq_ok_iff.mp made)⟩
  · rintro ⟨severity, code, message, notes, labels⟩
    refine ⟨d.labels, mapM_eq_ok_iff.mpr ((each d.labels).mpr labels), ?_⟩
    rw [← severity, ← code, ← message, ← notes]
    rfl

theorem load_eq_ok_iff (distinct : sources.paths.Nodup) {store : Store}
    {diagnostics : List Diagnostic} :
    load inputs sources = .ok (store, diagnostics) ↔
      store = .ofList sources ∧
        List.Forall₂ (DiagnosticInput.Carried sources (.ofList sources)) inputs diagnostics := by
  have each : List.Forall₂ (fun numbered made =>
      diagnostic sources numbered.2 numbered.1 = .ok made) inputs.zipIdx diagnostics ↔
        List.Forall₂ (DiagnosticInput.Carried sources (.ofList sources)) inputs diagnostics := by
    simp only [diagnostic_eq_ok_iff distinct]
    exact forall₂_zipIdx
  unfold load
  rw [bind_eq_ok_iff, ← each, ← mapM_eq_ok_iff]
  constructor
  · rintro ⟨made, all, own⟩
    cases own
    exact ⟨rfl, all⟩
  · rintro ⟨rfl, all⟩
    exact ⟨diagnostics, all, rfl⟩

theorem diagnostic_eq_error {index : Nat} {input : DiagnosticInput} {e : InputError}
    (h : diagnostic sources index input = .error e) :
    ∃ before l labelIndex after, input.labels.zipIdx = before ++ (l, labelIndex) :: after ∧
      (∀ numbered ∈ before, numbered.1.file ∈ sources.paths) ∧ l.file ∉ sources.paths ∧
      e = ⟨path index labelIndex, .notLoaded l.file⟩ := by
  rcases bind_eq_error_iff.mp h with made | ⟨labels, _, never⟩
  · obtain ⟨before, ⟨l, labelIndex⟩, after, split, good, bad⟩ :=
      exists_first_of_mapM_eq_error made
    obtain ⟨missing, rfl⟩ := label_eq_error bad
    refine ⟨before, l, labelIndex, after, split, fun numbered inside => ?_, missing, rfl⟩
    exact exists_label_iff.mp (good numbered inside)
  · cases never

/-- A diagnostic can be made when all of its labels have a source. -/
theorem file_mem_of_diagnostic {index : Nat} {input : DiagnosticInput} {d : Diagnostic}
    (h : diagnostic sources index input = .ok d) {l : LabelInput} (member : l ∈ input.labels) :
    l.file ∈ sources.paths := by
  obtain ⟨labels, made, _⟩ := bind_eq_ok_iff.mp h
  have numbered : l ∈ input.labels.zipIdx.map (·.1) := by
    rw [List.zipIdx_map_fst]
    exact member
  obtain ⟨⟨_, labelIndex⟩, inside, rfl⟩ := List.mem_map.mp numbered
  obtain ⟨label, _, own⟩ := exists_of_forall₂ (mapM_eq_ok_iff.mp made) inside
  exact exists_label_iff.mp ⟨label, own⟩

/-- Loading stops at the first label without a source. -/
theorem firstMissing_of_load {e : InputError} (h : load inputs sources = .error e) :
    ∃ i j l, FirstMissing inputs sources i j l ∧ e = ⟨path i j, .notLoaded l.file⟩ := by
  rcases bind_eq_error_iff.mp h with made | ⟨diagnostics, _, never⟩
  · obtain ⟨before, ⟨input, i⟩, after, split, good, bad⟩ := exists_first_of_mapM_eq_error made
    obtain ⟨front, l, j, back, cut, known, missing, rfl⟩ := diagnostic_eq_error bad
    obtain ⟨own, earlier⟩ := of_zipIdx_eq_append split
    obtain ⟨label, earlier_label⟩ := of_zipIdx_eq_append cut
    refine ⟨i, j, l, ⟨⟨input, own, label⟩, missing, ?_⟩, rfl⟩
    rintro i' j' input' l' found found_label (above | ⟨rfl, left⟩)
    · obtain ⟨d, made⟩ := good _ (earlier i' input' above found)
      exact file_mem_of_diagnostic made (List.mem_of_getElem? found_label)
    · rw [own, Option.some.injEq] at found
      subst found
      exact known _ (earlier_label j' l' left found_label)
  · cases never

theorem exists_load_iff (distinct : sources.paths.Nodup) :
    (∃ loaded, load inputs sources = .ok loaded) ↔
      ∀ input ∈ inputs, ∀ l ∈ input.labels, l.file ∈ sources.paths := by
  constructor
  · rintro ⟨⟨store, diagnostics⟩, h⟩ input member l inside
    obtain ⟨_, all⟩ := (load_eq_ok_iff distinct).mp h
    obtain ⟨d, _, own⟩ := exists_of_forall₂ all member
    obtain ⟨label, _, carried⟩ := exists_of_forall₂ own.labels inside
    obtain ⟨id, text, found, _⟩ := carried.file
    exact List.mem_map.mpr ⟨_, List.mem_of_getElem? found, rfl⟩
  · intro known
    cases made : load inputs sources with
    | ok loaded => exact ⟨loaded, rfl⟩
    | error e =>
      obtain ⟨i, j, l, ⟨⟨input, here, label⟩, missing, _⟩, _⟩ := firstMissing_of_load made
      exact absurd (known input (List.mem_of_getElem? here) l (List.mem_of_getElem? label)) missing

end Input

/-- Where the file of a label is said to be missing. -/
theorem Input.issuePath_path (i j : Nat) :
    issuePath (path i j) =
      "$.diagnostics[" ++ Decimal.digits i ++ "].labels[" ++ Decimal.digits j ++ "].file" := by
  apply String.toList_injective
  simp [issuePath, path, Step.toText, String.join]

namespace Command

variable {files : FileSystem} {i : Invocation}

/-- Where a file that a label names is read from. -/
def sourcePlace (i : Invocation) (path : String) : String :=
  Path.resolve (Path.directory i.input) path

theorem readSources_eq_ok_iff {paths : List String} {sources : SourceTexts} :
    readSources files i paths = .ok sources ↔
      List.Forall₂ (fun path source =>
        source.1 = path ∧ files (sourcePlace i path) = .ok source.2) paths sources := by
  induction paths generalizing sources with
  | nil => cases sources <;> simp [readSources]
  | cons path paths ih =>
    rw [readSources]
    cases own : files (Path.resolve (Path.directory i.input) path) with
    | error fault => simp [List.forall₂_cons_left_iff, sourcePlace, own]
    | ok text =>
      dsimp only
      rw [bind_eq_ok_iff, List.forall₂_cons_left_iff]
      constructor
      · rintro ⟨rest, read, made⟩
        cases made
        exact ⟨(path, text), rest, ⟨rfl, own⟩, ih.mp read, rfl⟩
      · rintro ⟨⟨_, _⟩, rest, ⟨rfl, found⟩, read, rfl⟩
        cases own.symm.trans found
        exact ⟨rest, ih.mpr read, rfl⟩

theorem paths_of_readSources {paths : List String} {sources : SourceTexts}
    (h : readSources files i paths = .ok sources) : sources.paths = paths := by
  have same := (readSources_eq_ok_iff.mp h).imp fun _ _ own => own.1.symm
  rw [SourceTexts.paths, eq_comm, ← List.forall₂_eq_eq_eq, List.forall₂_map_right_iff]
  exact same

/-- The sources that are read for an input are those it needs. -/
theorem exists_load_of_readSources {inputs : List DiagnosticInput} {sources : SourceTexts}
    (h : readSources files i (sourcePaths inputs) = .ok sources) :
    ∃ store diagnostics, Input.load inputs sources = .ok (store, diagnostics) := by
  have same := paths_of_readSources h
  have distinct : sources.paths.Nodup := same ▸ nodup_sourcePaths inputs
  obtain ⟨⟨store, diagnostics⟩, loaded⟩ :=
    (Input.exists_load_iff distinct).mpr fun input member l inside =>
      same ▸ mem_sourcePaths.mpr ⟨input, member, l, inside, rfl⟩
  exact ⟨store, diagnostics, loaded⟩

/-- A plan fails for its options, its input or one of its sources, and for nothing else. -/
theorem plan_cases (files : FileSystem) (i : Invocation) :
    (∃ problem, plan files i = .error problem ∧
      (checkOptions i = .error problem ∨
        (∃ options, checkOptions i = .ok options) ∧ readInput files i = .error problem ∨
        (∃ options, checkOptions i = .ok options) ∧ ∃ inputs, readInput files i = .ok inputs ∧
          readSources files i (sourcePaths inputs) = .error problem)) ∨
      ∃ options inputs sources store diagnostics, checkOptions i = .ok options ∧
        readInput files i = .ok inputs ∧ readSources files i (sourcePaths inputs) = .ok sources ∧
        Input.load inputs sources = .ok (store, diagnostics) ∧
        plan files i = .ok ⟨⟨store.sources, options, i.debug⟩, diagnostics⟩ := by
  unfold plan
  cases checked : checkOptions i with
  | error problem => exact .inl ⟨problem, rfl, .inl rfl⟩
  | ok options =>
    cases read : readInput files i with
    | error problem => exact .inl ⟨problem, rfl, .inr (.inl ⟨⟨options, rfl⟩, rfl⟩)⟩
    | ok inputs =>
      cases found : readSources files i (sourcePaths inputs) with
      | error problem =>
        refine .inl ⟨problem, ?_, .inr (.inr ⟨⟨options, rfl⟩, inputs, rfl, found⟩)⟩
        simp only [bind, Except.bind, found]
      | ok sources =>
        obtain ⟨store, diagnostics, loaded⟩ := exists_load_of_readSources found
        refine .inr ⟨options, inputs, sources, store, diagnostics, rfl, rfl, found, loaded, ?_⟩
        simp only [bind, Except.bind, found, loaded]
        rfl

end Command

/-- Labels point at the files they name. The paths to read are those of the labels, once each
and in the order of their first uses. Sources with these paths, or with any distinct paths,
get the ids from zero on in their order; loading succeeds exactly if every label has a source,
and then carries every diagnostic and every label over in order, each label at the source of
its own path. Otherwise it names the first label without one. So it succeeds for the sources
that are read for an input, and a call that fails does so for its options, its input or a
source that cannot be read. -/
theorem labels_point_at_named_files (inputs : List DiagnosticInput) (sources : SourceTexts)
    (distinct : sources.paths.Nodup) :
    ((sourcePaths inputs).Nodup ∧
      (∀ path, path ∈ sourcePaths inputs ↔ ∃ input ∈ inputs, ∃ l ∈ input.labels, l.file = path) ∧
      (sourcePaths inputs).Pairwise fun a b =>
        (namedFiles inputs).idxOf a < (namedFiles inputs).idxOf b) ∧
    ((∃ loaded, Input.load inputs sources = .ok loaded) ↔
      ∀ input ∈ inputs, ∀ l ∈ input.labels, l.file ∈ sources.paths) ∧
    (∀ store diagnostics, Input.load inputs sources = .ok (store, diagnostics) →
      store.count = sources.length ∧
      (∀ (id : Nat) path text, sources[id]? = some (path, text) →
        store.sources.name (id : Number) = some path ∧
          store.sources.source (id : Number) = some text) ∧
      List.Forall₂ (DiagnosticInput.Carried sources store) inputs diagnostics) ∧
    (∀ e, Input.load inputs sources = .error e → ∃ i j l, FirstMissing inputs sources i j l ∧
      e = ⟨Input.path i j, .notLoaded l.file⟩ ∧
      issuePath e.path =
        "$.diagnostics[" ++ Decimal.digits i ++ "].labels[" ++ Decimal.digits j ++ "].file") ∧
    (sources.paths = sourcePaths inputs → ∃ loaded, Input.load inputs sources = .ok loaded) ∧
    (∀ files i problem, Command.plan files i = .error problem →
      Command.checkOptions i = .error problem ∨ Command.readInput files i = .error problem ∨
        ∃ parsed, Command.readInput files i = .ok parsed ∧
          Command.readSources files i (sourcePaths parsed) = .error problem) := by
  refine ⟨⟨nodup_sourcePaths inputs, fun _ => mem_sourcePaths, sourcePaths_ordered inputs⟩,
    Input.exists_load_iff distinct, ?_, ?_, ?_, ?_⟩
  · intro store diagnostics loaded
    obtain ⟨rfl, carried⟩ := (Input.load_eq_ok_iff distinct).mp loaded
    refine ⟨by simp [Store.count, Store.ofList], fun id path text found => ?_, carried⟩
    exact Store.known_ofList found
  · intro e stopped
    obtain ⟨i, j, l, first, rfl⟩ := Input.firstMissing_of_load stopped
    exact ⟨i, j, l, first, rfl, Input.issuePath_path i j⟩
  · intro same
    refine (Input.exists_load_iff distinct).mpr fun input member l inside => ?_
    exact same ▸ mem_sourcePaths.mpr ⟨input, member, l, inside, rfl⟩
  · intro files i problem stopped
    rcases Command.plan_cases files i with ⟨_, own, cause⟩ | ⟨_, _, _, _, _, _, _, _, _, own⟩
    · cases own.symm.trans stopped
      exact cause.imp_right fun later => later.imp (·.2) (·.2)
    · cases own.symm.trans stopped

/-! ## Two diagnostics that share a file -/

namespace Sample

def labelAt (file : String) (start stop : Nat) : LabelInput :=
  ⟨.primary, file, start, stop, none⟩

def sharedInputs : List DiagnosticInput :=
  [⟨.error, none, "m", [labelAt "b" 0 1, labelAt "a" 0 1], []⟩,
    ⟨.note, some "E1", "n", [labelAt "b" 1 2], ["see"]⟩]

def sharedSources : SourceTexts := [("b", "xy"), ("a", "z")]

end Sample

theorem labels_point_at_named_files_sample :
    sourcePaths Sample.sharedInputs = ["b", "a"] ∧
      ∃ store diagnostics,
        Input.load Sample.sharedInputs Sample.sharedSources = .ok (store, diagnostics) ∧
        store.sources.source (1 : Nat) = some "z" ∧ diagnostics.length = 2 := by
  have paths : sourcePaths Sample.sharedInputs = ["b", "a"] := by decide +kernel
  obtain ⟨_, _, carried, _, succeeds, _⟩ :=
    labels_point_at_named_files Sample.sharedInputs Sample.sharedSources (by decide +kernel)
  obtain ⟨⟨store, diagnostics⟩, loaded⟩ := succeeds (by rw [paths]; rfl)
  obtain ⟨_, known, all⟩ := carried store diagnostics loaded
  exact ⟨paths, store, diagnostics, loaded, (known 1 "a" "z" rfl).2, all.length_eq.symm⟩

end Excerpt
