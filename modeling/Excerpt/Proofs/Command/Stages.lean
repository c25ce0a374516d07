import Excerpt.Command.Render
import Excerpt.Proofs.Input.Loading
import Excerpt.Proofs.Settings

/-! The stages of a call. The color mode is looked at first, then the options, the input, its
shape, and the files it names in their order; the first of them that is not as it should be
stops the call, and with none the diagnostics of the input are rendered. -/
namespace Excerpt.Command

variable {files : FileSystem} {i : Invocation}

/-- The mode that was asked for is known. -/
def KnownMode (i : Invocation) : Prop := ∃ mode : ColorMode, i.color = mode.name

/-- The level of a call on a terminal that supports `detected` by itself. A mode that is not
known is reported without colors. -/
def level (i : Invocation) (detected : ColorLevel) : ColorLevel :=
  match ColorMode.ofName? i.color with
  | none => .none
  | some mode => mode.level detected

/-- The problem of the first stage that fails. -/
inductive Stops (files : FileSystem) (i : Invocation) : Problem → Prop
  | colorMode (unknown : ¬KnownMode i) : Stops files i (.colorMode i.color)
  | option {e : ConfigError} (known : KnownMode i) (refused : (settings i).Refuses e)
      (first : (settings i).resolve = .error e) : Stops files i (.option e.message)
  | unreadable {fault : Fault} (known : KnownMode i) (valid : (settings i).Valid)
      (unread : files i.input = .error fault) : Stops files i (.unreadable i.input fault)
  | input {text : String} {e : InputError} (known : KnownMode i) (valid : (settings i).Valid)
      (read : files i.input = .ok text) (malformed : parseInput text = .error e) :
      Stops files i (.input i.input e.message)
  | source {text path : String} {inputs : List DiagnosticInput} {before after : List String}
      {fault : Fault} (known : KnownMode i) (valid : (settings i).Valid)
      (read : files i.input = .ok text) (parsed : parseInput text = .ok inputs)
      (split : sourcePaths inputs = before ++ path :: after)
      (earlier : ∀ other ∈ before, ∃ text, files (sourcePlace i other) = .ok text)
      (unread : files (sourcePlace i path) = .error fault) :
      Stops files i (.unreadable path fault)

/-- All stages succeed, and these diagnostics are to be rendered. -/
structure Proceeds (files : FileSystem) (i : Invocation) (config : Config) (p : Plan) : Prop where
  known : KnownMode i
  valid : (settings i).resolve = .ok config
  options : p.job.options = { Options.standard with settings := settings i }
  debug : p.job.debug = i.debug
  loaded : ∃ text inputs sources store, files i.input = .ok text ∧ parseInput text = .ok inputs ∧
    List.Forall₂ (fun path source =>
      source.1 = path ∧ files (sourcePlace i path) = .ok source.2) (sourcePaths inputs) sources ∧
    Input.load inputs sources = .ok (store, p.diagnostics) ∧ p.job.sources = store.sources

theorem ofName?_eq_some_iff {name : String} {mode : ColorMode} :
    ColorMode.ofName? name = some mode ↔ name = mode.name := by
  constructor
  · intro found
    have same := List.find?_some found
    exact (beq_iff_eq.mp same).symm
  · rintro rfl
    cases mode <;> decide

theorem checkOptions_eq_error_iff {problem : Problem} :
    checkOptions i = .error problem ↔
      ∃ e, (settings i).resolve = .error e ∧ problem = .option e.message := by
  unfold checkOptions
  cases (settings i).resolve with
  | error e => simp [eq_comm]
  | ok config => simp

theorem checkOptions_eq_ok_iff {options : Options} :
    checkOptions i = .ok options ↔ (∃ config, (settings i).resolve = .ok config) ∧
      options = { Options.standard with settings := settings i } := by
  unfold checkOptions
  cases (settings i).resolve with
  | error e => simp
  | ok config => simp [eq_comm]

theorem readInput_eq_error_iff {problem : Problem} :
    readInput files i = .error problem ↔
      (∃ fault, files i.input = .error fault ∧ problem = .unreadable i.input fault) ∨
        ∃ text e, files i.input = .ok text ∧ parseInput text = .error e ∧
          problem = .input i.input e.message := by
  unfold readInput
  cases files i.input with
  | error fault => simp [eq_comm]
  | ok text => cases parsed : parseInput text <;> simp [parsed, eq_comm]

theorem readInput_eq_ok_iff {inputs : List DiagnosticInput} :
    readInput files i = .ok inputs ↔
      ∃ text, files i.input = .ok text ∧ parseInput text = .ok inputs := by
  unfold readInput
  cases files i.input with
  | error fault => simp
  | ok text => cases parsed : parseInput text <;> simp [parsed]

/-- The first source that cannot be read is the problem of all of them. -/
theorem readSources_eq_error_iff {paths : List String} {problem : Problem} :
    readSources files i paths = .error problem ↔
      ∃ before path after fault, paths = before ++ path :: after ∧
        (∀ other ∈ before, ∃ text, files (sourcePlace i other) = .ok text) ∧
        files (sourcePlace i path) = .error fault ∧ problem = .unreadable path fault := by
  induction paths with
  | nil => simp [readSources]
  | cons path paths ih =>
    rw [readSources]
    constructor
    · intro h
      cases own : files (Path.resolve (Path.directory i.input) path) with
      | error fault =>
        rw [own] at h
        cases h
        exact ⟨[], path, paths, fault, rfl, by simp, own, rfl⟩
      | ok text =>
        rw [own] at h
        dsimp only at h
        cases rest : readSources files i paths with
        | ok sources =>
          rw [rest] at h
          cases h
        | error other =>
          rw [rest] at h
          cases h
          obtain ⟨before, failed, after, fault, split, earlier, unread, same⟩ := ih.mp rest
          refine ⟨path :: before, failed, after, fault, by rw [split]; rfl, ?_, unread, same⟩
          exact List.forall_mem_cons.mpr ⟨⟨text, own⟩, earlier⟩
    · rintro ⟨before, failed, after, fault, split, earlier, unread, rfl⟩
      cases before with
      | nil =>
        cases split
        rw [show files (Path.resolve (Path.directory i.input) path) = _ from unread]
      | cons first before =>
        cases split
        obtain ⟨⟨text, own⟩, later⟩ := List.forall_mem_cons.mp earlier
        rw [show files (Path.resolve (Path.directory i.input) path) = _ from own]
        dsimp only
        rw [ih.mpr ⟨before, failed, after, fault, rfl, later, unread, rfl⟩]
        rfl

theorem ofName?_eq_none_iff : ColorMode.ofName? i.color = none ↔ ¬KnownMode i := by
  rw [Option.eq_none_iff_forall_ne_some]
  constructor
  · rintro none ⟨mode, own⟩
    exact none mode (ofName?_eq_some_iff.mpr own)
  · intro unknown mode found
    exact unknown ⟨mode, ofName?_eq_some_iff.mp found⟩

theorem settings_refuses_of_resolve {e : ConfigError} (h : (settings i).resolve = .error e) :
    (settings i).Refuses e := by
  rcases Settings.resolve_cases (settings i) with ⟨_, config, ok⟩ | ⟨other, refused, stopped⟩
  · rw [h] at ok
    cases ok
  · cases h.symm.trans stopped
    exact refused

theorem checkOptions_of_valid (valid : (settings i).Valid) :
    checkOptions i = .ok { Options.standard with settings := settings i } :=
  checkOptions_eq_ok_iff.mpr ⟨Settings.valid_iff.mp valid, rfl⟩

/-! ## The order of the stages -/

/-- A stage that fails is the problem of the plan. -/
theorem plan_of_stops {problem : Problem} (known : KnownMode i) (h : Stops files i problem) :
    plan files i = .error problem := by
  unfold plan
  cases h with
  | colorMode unknown => exact absurd known unknown
  | option _ _ first =>
    rw [checkOptions_eq_error_iff.mpr ⟨_, first, rfl⟩]
    rfl
  | unreadable _ valid unread =>
    rw [checkOptions_of_valid valid, readInput_eq_error_iff.mpr (.inl ⟨_, unread, rfl⟩)]
    rfl
  | input _ valid read malformed =>
    rw [checkOptions_of_valid valid,
      readInput_eq_error_iff.mpr (.inr ⟨_, _, read, malformed, rfl⟩)]
    rfl
  | source _ valid read parsed split earlier unread =>
    have stopped := readSources_eq_error_iff.mpr ⟨_, _, _, _, split, earlier, unread, rfl⟩
    simp only [checkOptions_of_valid valid, readInput_eq_ok_iff.mpr ⟨_, read, parsed⟩, bind,
      Except.bind, stopped]

theorem plan_of_proceeds {config : Config} {p : Plan} (h : Proceeds files i config p) :
    plan files i = .ok p := by
  obtain ⟨text, inputs, sources, store, read, parsed, texts, loaded, own⟩ := h.loaded
  obtain ⟨⟨stores, options, debug⟩, diagnostics⟩ := p
  obtain rfl : options = _ := h.options
  obtain rfl : debug = _ := h.debug
  obtain rfl : stores = _ := own
  unfold plan
  simp only [checkOptions_eq_ok_iff.mpr ⟨⟨config, h.valid⟩, rfl⟩,
    readInput_eq_ok_iff.mpr ⟨text, read, parsed⟩, bind, Except.bind,
    readSources_eq_ok_iff.mpr texts, loaded]
  rfl

/-- Either one stage fails first or none does. -/
theorem stops_or_proceeds (files : FileSystem) (i : Invocation) :
    (∃ problem, Stops files i problem) ∨ ∃ config p, Proceeds files i config p := by
  by_cases known : KnownMode i
  case neg => exact .inl ⟨_, .colorMode known⟩
  cases resolved : (settings i).resolve with
  | error e => exact .inl ⟨_, .option known (settings_refuses_of_resolve resolved) resolved⟩
  | ok config =>
    have valid : (settings i).Valid := Settings.valid_iff.mpr ⟨config, resolved⟩
    cases read : files i.input with
    | error fault => exact .inl ⟨_, .unreadable known valid read⟩
    | ok text =>
      cases parsed : parseInput text with
      | error e => exact .inl ⟨_, .input known valid read parsed⟩
      | ok inputs =>
        cases found : readSources files i (sourcePaths inputs) with
        | error problem =>
          obtain ⟨before, path, after, fault, split, earlier, unread, rfl⟩ :=
            readSources_eq_error_iff.mp found
          exact .inl ⟨_, .source known valid read parsed split earlier unread⟩
        | ok sources =>
          obtain ⟨store, diagnostics, loaded⟩ := exists_load_of_readSources found
          refine .inr ⟨config, ⟨⟨store.sources, { Options.standard with settings := settings i },
            i.debug⟩, diagnostics⟩, known, resolved, rfl, rfl, ?_⟩
          exact ⟨text, inputs, sources, store, read, parsed, readSources_eq_ok_iff.mp found, loaded,
            rfl⟩

theorem Stops.not_proceeds {problem : Problem} (h : Stops files i problem) {config : Config}
    {p : Plan} : ¬Proceeds files i config p := by
  intro proceeds
  have planned := plan_of_proceeds proceeds
  rw [plan_of_stops proceeds.known h] at planned
  cases planned

section

variable {σ : Type} (sink : Sink σ) (state : σ) (detected : ColorLevel)

theorem run_of_stops {problem : Problem} (h : Stops files i problem) :
    run sink state detected files i = (Session.start (.fresh state)).report
      (.terminal (level i detected) sink) problem.diagnostic := by
  unfold run level
  cases found : ColorMode.ofName? i.color with
  | none =>
    have unknown := ofName?_eq_none_iff.mp found
    cases h with
    | colorMode => rfl
    | option known | unreadable known | input known | source known => exact absurd known unknown
  | some mode => simp only [plan_of_stops ⟨mode, ofName?_eq_some_iff.mp found⟩ h]

theorem run_of_proceeds {config : Config} {p : Plan} (h : Proceeds files i config p) :
    run sink state detected files i = (Session.start (.fresh state)).renderAll
      (.terminal (level i detected) sink) p.job p.diagnostics := by
  unfold run level
  cases found : ColorMode.ofName? i.color with
  | none => exact absurd h.known (ofName?_eq_none_iff.mp found)
  | some mode => simp only [plan_of_proceeds h]

end

end Excerpt.Command
