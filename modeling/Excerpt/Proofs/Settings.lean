import Excerpt.Config

/-! Which options are accepted. Each may be left out or be one natural number that is not
less than its least value; they are all accepted, or one that is not is refused. -/
namespace Excerpt

/-- The least value of an option. -/
def ConfigOption.minimum : ConfigOption → Nat
  | tabWidth => 1
  | contextLines | startContextLines | endContextLines | elisionThreshold => 0

namespace Settings

/-- What is given for an option. -/
def given? (s : Settings) : ConfigOption → Option Setting
  | .tabWidth => s.tabWidth
  | .contextLines => s.contextLines
  | .startContextLines => s.startContextLines
  | .endContextLines => s.endContextLines
  | .elisionThreshold => s.elisionThreshold

/-- What is given, if anything, is one natural number that is not too small. -/
def Allowed (minimum : Nat) (setting : Option Setting) : Prop :=
  ∀ given ∈ setting, ∃ n : Nat, minimum ≤ n ∧ given = .number n

def Valid (s : Settings) : Prop := ∀ option : ConfigOption, Allowed option.minimum (s.given? option)

/-- An error that tells what is wrong with one of the options. -/
structure Refuses (s : Settings) (e : ConfigError) : Prop where
  given : s.given? e.option = some e.setting
  minimum : e.minimum = e.option.minimum
  bad : ¬Allowed e.option.minimum (s.given? e.option)

theorem check_cases (option : ConfigOption) (minimum : Nat) (setting : Option Setting) :
    (Allowed minimum setting ∧ ∃ value, check option minimum setting = .ok value) ∨
      ∃ given, setting = some given ∧ ¬Allowed minimum setting ∧
        check option minimum setting = .error ⟨option, given, minimum⟩ := by
  have bad {given : Setting} (h : ∀ n : Nat, minimum ≤ n → given ≠ .number n) :
      ¬Allowed minimum (some given) := by
    intro allowed
    obtain ⟨n, enough, rfl⟩ := allowed given rfl
    exact h n enough rfl
  match setting with
  | none => exact .inl ⟨fun given inside => (Option.not_mem_none given inside).elim, none, rfl⟩
  | some (.several text) => exact .inr ⟨_, rfl, bad (by simp), rfl⟩
  | some (.number value) =>
    cases found : value.toNat? with
    | none =>
      refine .inr ⟨_, rfl, bad fun n _ same => ?_, by simp [check, found]⟩
      cases same
      simp at found
    | some n =>
      obtain rfl := Number.toNat?_eq_some_iff.mp found
      by_cases enough : minimum ≤ n
      · refine .inl ⟨?_, some ⟨n, enough⟩, by simp [check, enough]⟩
        rintro given ⟨⟩
        exact ⟨n, enough, rfl⟩
      · refine .inr ⟨_, rfl, bad fun other more same => enough ?_, by simp [check, enough]⟩
        have values := congrArg Number.toNat? (Setting.number.inj same)
        rw [Number.toNat?_natCast, Number.toNat?_natCast] at values
        exact Option.some.inj values ▸ more

theorem Refuses.not_valid {s : Settings} {e : ConfigError} (h : s.Refuses e) : ¬s.Valid :=
  fun valid => h.bad (valid e.option)

/-- The check of an option of some settings tells whether it is allowed. -/
theorem check_given (s : Settings) (option : ConfigOption) (minimum : Nat)
    (setting : Option Setting) (own : s.given? option = setting)
    (least : option.minimum = minimum) :
    (Allowed minimum setting ∧ ∃ value, check option minimum setting = .ok value) ∨
      ∃ e, s.Refuses e ∧ check option minimum setting = .error e := by
  refine (check_cases option minimum setting).imp_right ?_
  rintro ⟨given, here, bad, h⟩
  subst own least
  exact ⟨_, ⟨here, rfl, bad⟩, h⟩

/-- The options are checked one after the other. -/
theorem resolve_cases (s : Settings) :
    (s.Valid ∧ ∃ config, s.resolve = .ok config) ∨ ∃ e, s.Refuses e ∧ s.resolve = .error e := by
  rcases check_given s .tabWidth 1 s.tabWidth rfl rfl with ⟨tab, _, h₁⟩ | ⟨e, refused, h₁⟩
  case inr => exact .inr ⟨e, refused, by rw [resolve, h₁]; rfl⟩
  rcases check_given s .contextLines 0 s.contextLines rfl rfl with
    ⟨lines, _, h₂⟩ | ⟨e, refused, h₂⟩
  case inr => exact .inr ⟨e, refused, by rw [resolve, h₁, h₂]; rfl⟩
  rcases check_given s .startContextLines 0 s.startContextLines rfl rfl with
    ⟨first, _, h₃⟩ | ⟨e, refused, h₃⟩
  case inr => exact .inr ⟨e, refused, by rw [resolve, h₁, h₂, h₃]; rfl⟩
  rcases check_given s .endContextLines 0 s.endContextLines rfl rfl with
    ⟨last, _, h₄⟩ | ⟨e, refused, h₄⟩
  case inr => exact .inr ⟨e, refused, by rw [resolve, h₁, h₂, h₃, h₄]; rfl⟩
  rcases check_given s .elisionThreshold 0 s.elisionThreshold rfl rfl with
    ⟨most, _, h₅⟩ | ⟨e, refused, h₅⟩
  case inr => exact .inr ⟨e, refused, by rw [resolve, h₁, h₂, h₃, h₄, h₅]; rfl⟩
  refine .inl ⟨fun option => ?_, _, by rw [resolve, h₁, h₂, h₃, h₄, h₅]; rfl⟩
  cases option <;> assumption

theorem valid_iff {s : Settings} : s.Valid ↔ ∃ config, s.resolve = .ok config := by
  rcases resolve_cases s with ⟨valid, found⟩ | ⟨e, refused, stopped⟩
  · exact iff_of_true valid found
  · refine iff_of_false refused.not_valid ?_
    rintro ⟨config, ok⟩
    rw [stopped] at ok
    cases ok

theorem exists_refused_of_not_valid {s : Settings} (h : ¬s.Valid) :
    ∃ e, s.Refuses e ∧ s.resolve = .error e :=
  (resolve_cases s).resolve_left fun valid => h valid.1

end Settings
end Excerpt
