import AttestationTrust.Proofs.Components
import AttestationTrust.Proofs.Decimals
import AttestationTrust.Proofs.Fields
/-!
# The limit of time for a request

The limit is a number above zero, the one that is configured or else the one that is usual (`Settings.Limits`).  Both
readers of it look at the sign of a number and no further, so a number that is too large for a request passes them: an
integer that no finite number is near to is not read at all, and infinity is taken for a limit, whether the settings
hold it or the environment spells it (`Numeral.Endless`).  Nothing else comes to a limit that is no bound
(`Settings.readTimeout_bounds_unless_overflow`).
-/
namespace AttestationTrust

/-- A number that bounds the time of a request: above zero, and finite. -/
def Binary64.IsBound (x : Binary64) : Prop := x.isPositive = true ∧ x.isFinite = true

namespace Settings

variable {s changes : Settings} {env : Environment} {key raw : String} {v : Value} {x : Binary64}
  {r r' : Except Failure Binary64}

theorem isBound_defaultTimeout : defaultTimeout.IsBound := ⟨by decide, by decide⟩

/-! ## The limit that a value sets -/

/-- A value is an integer or a floating point number above zero. -/
inductive IsAboveZero : Value → Prop
  | int {n : Int} (h : 0 < n) : IsAboveZero (.int n)
  | float {x : Binary64} (h : x.isPositive = true) : IsAboveZero (.float x)

/-- A number above zero sets the limit, an integer once it is rounded; it cannot be if it is too large.  Under any other
value the usual limit stands. -/
inductive Limits : Value → Except Failure Binary64 → Prop
  | float {x : Binary64} (h : x.isPositive = true) : Limits (.float x) (.ok x)
  | int {n : Int} (hpos : 0 < n) (hlt : n < Binary64.overflow) :
      Limits (.int n) (.ok (Binary64.ofRatio false n.toNat 1))
  | tooLarge {n : Int} (h : (Binary64.overflow : Int) ≤ n) : Limits (.int n) (.error (.range .integerTooLarge))
  | usual {v : Value} (h : ¬ IsAboveZero v) : Limits v (.ok defaultTimeout)

/-- A value is a number above zero that is too large to be rounded, or is not finite to begin with. -/
inductive Overflows : Value → Prop
  | int {n : Int} (h : (Binary64.overflow : Int) ≤ n) : Overflows (.int n)
  | infinity : Overflows (.float Binary64.infinity)

theorem limits_readTimeout (s : Settings) : Limits (s.get Setting.fetchTimeout.key) s.readTimeout := by
  unfold readTimeout
  cases s.get Setting.fetchTimeout.key with
  | int n =>
    dsimp only
    split
    · next hpos =>
      rw [Binary64.ofInt?_of_pos hpos]
      by_cases hlt : n < Binary64.overflow
      · rw [if_pos hlt]
        exact .int hpos hlt
      · rw [if_neg hlt]
        exact .tooLarge (Int.not_lt.1 hlt)
    · next hpos => exact .usual fun | .int h => hpos h
  | float x =>
    dsimp only
    split
    · next hpos => exact .float hpos
    · next hpos => exact .usual fun | .float h => hpos h
  | _ => exact .usual nofun

theorem Limits.unique (h : Limits v r) (h' : Limits v r') : r = r' := by
  have hpos : (0 : Int) < Binary64.overflow := Int.natCast_pos.2 Binary64.overflow_pos
  cases h with
  | float hx =>
    cases h' with
    | float _ => rfl
    | usual hnot => exact absurd (.float hx) hnot
  | int hn hlt =>
    cases h' with
    | int _ _ => rfl
    | tooLarge hle => omega
    | usual hnot => exact absurd (.int hn) hnot
  | tooLarge hle =>
    cases h' with
    | int _ hlt => omega
    | tooLarge _ => rfl
    | usual hnot => exact absurd (.int (hpos.trans_le hle)) hnot
  | usual hnot =>
    cases h' with
    | float hx => exact absurd (.float hx) hnot
    | int hn _ => exact absurd (.int hn) hnot
    | tooLarge hle => exact absurd (.int (hpos.trans_le hle)) hnot
    | usual _ => rfl

theorem readTimeout_eq_iff : s.readTimeout = r ↔ Limits (s.get Setting.fetchTimeout.key) r :=
  ⟨fun h => h ▸ limits_readTimeout s, fun h => (limits_readTimeout s).unique h⟩

theorem Overflows.isAboveZero (h : Overflows v) : IsAboveZero v := by
  cases h with
  | int hle => exact .int (Int.lt_of_lt_of_le (Int.natCast_pos.2 Binary64.overflow_pos) hle)
  | infinity => exact .float (by decide)

theorem overflows_float_iff (hpos : x.isPositive = true) : Overflows (.float x) ↔ ¬ x.isFinite = true := by
  have hinfinity : x.isFinite = false ↔ x = Binary64.infinity := by
    rw [← Binary64.isPositive_and_not_isFinite_iff, and_iff_right hpos]
  rw [Bool.not_eq_true, hinfinity]
  constructor
  · rintro ⟨⟩
    rfl
  · rintro rfl
    exact .infinity

theorem Limits.isBound_iff (h : Limits v r) : (∃ x, r = .ok x ∧ x.IsBound) ↔ ¬ Overflows v := by
  cases h with
  | float hpos =>
    rw [overflows_float_iff hpos, not_not]
    constructor
    · rintro ⟨x, ⟨⟩, hbound⟩
      exact hbound.2
    · exact fun hfinite => ⟨_, rfl, hpos, hfinite⟩
  | @int n hpos hlt =>
    have hnat : 0 < n.toNat := by omega
    have hfinite := (Binary64.isFinite_ofRatio_one_iff hnat).2 (by omega)
    refine iff_of_true ⟨_, rfl, Binary64.isPositive_ofRatio Nat.one_pos hnat, hfinite⟩ ?_
    rintro ⟨hle⟩
    omega
  | tooLarge hle => exact iff_of_false (by simp) (not_not.2 (.int hle))
  | usual hnot => exact iff_of_true ⟨_, rfl, isBound_defaultTimeout⟩ fun hover => hnot hover.isAboveZero

/-! ## The limit that the environment sets -/

theorem field?_update (h : Value.Keyed changes) (s : Settings) : Value.field? key (s.update changes) =
    (Value.field? key changes).or (Value.field? key s) := by
  induction changes generalizing s with
  | nil => rfl
  | cons f rest ih =>
    obtain ⟨k, v⟩ := f
    obtain ⟨hk, hrest⟩ := List.nodup_cons.1 h
    have hstep : s.update ((k, v) :: rest) = update (Value.setField k v s) rest := rfl
    rw [hstep, ih hrest, Value.field?_setField, Value.field?_cons]
    split
    · next heq =>
      have hnone : Value.field? key rest = none := Option.eq_none_iff_forall_ne_some.2 fun w hw =>
        hk (List.mem_map.2 ⟨(key, w), Value.mem_of_field?_eq_some hw, heq⟩)
      rw [hnone]
      rfl
    · rfl

theorem keyed_ofEnvironment (env : Environment) : Value.Keyed (ofEnvironment env) := by
  have hkeys : (ofEnvironment env).map Prod.fst = environmentOrder.filterMap fun setting =>
      ((env.lookup setting.environmentName).bind (ofText setting)).map fun _ => setting.key := by
    unfold ofEnvironment
    rw [List.map_filterMap]
    simp [Function.comp_def]
  have horder : environmentOrder.Nodup := by decide
  unfold Value.Keyed
  rw [hkeys]
  refine horder.filterMap fun a b key ha hb => Setting.key_injective ?_
  obtain ⟨-, -, rfl⟩ := Option.map_eq_some_iff.1 ha
  obtain ⟨-, -, heq⟩ := Option.map_eq_some_iff.1 hb
  exact heq.symm

theorem timeoutOfText_eq_some_iff :
    timeoutOfText raw = some v ↔ ∃ x, Numeral.Spells raw x ∧ x.isPositive = true ∧ v = .float x := by
  unfold timeoutOfText
  rw [Option.bind_eq_some_iff]
  refine exists_congr fun x => and_congr Numeral.readFloat_eq_some_iff ?_
  by_cases hpos : x.isPositive = true <;> simp [hpos, eq_comm]

/-- The environment sets the limit with a text that spells a number above zero, and else leaves the usual one. -/
inductive LimitsFrom (env : Environment) : Binary64 → Prop
  | text {raw : String} {x : Binary64} (h : env.lookup Setting.fetchTimeout.environmentName = some raw)
      (hx : Numeral.Spells raw x) (hpos : x.isPositive = true) : LimitsFrom env x
  | usual (h : ∀ raw x, env.lookup Setting.fetchTimeout.environmentName = some raw → Numeral.Spells raw x →
      x.isPositive = false) : LimitsFrom env defaultTimeout

/-- The environment sets the limit to a number that is no bound. -/
def Unbounds (env : Environment) : Prop :=
  ∃ raw, env.lookup Setting.fetchTimeout.environmentName = some raw ∧ Numeral.Endless raw

theorem LimitsFrom.isPositive (h : LimitsFrom env x) : x.isPositive = true := by
  cases h with
  | text _ _ hpos => exact hpos
  | usual _ => exact isBound_defaultTimeout.1

theorem LimitsFrom.isBound_iff (h : LimitsFrom env x) : x.IsBound ↔ ¬ Unbounds env := by
  cases h with
  | @text raw x hraw hx hpos =>
    have hendless : Unbounds env ↔ x = Binary64.infinity := by
      constructor
      · rintro ⟨raw', hraw', hendless⟩
        cases hraw.symm.trans hraw'
        exact hx.unique (Numeral.spells_infinity_iff.2 hendless)
      · rintro rfl
        exact ⟨raw, hraw, Numeral.spells_infinity_iff.1 hx⟩
    rw [hendless, ← Binary64.isPositive_and_not_isFinite_iff]
    simp [Binary64.IsBound, hpos]
  | usual h =>
    refine iff_of_true isBound_defaultTimeout ?_
    -- infinity is above zero, so the text that spells it would have set the limit
    rintro ⟨raw, hraw, hendless⟩
    exact absurd (h raw _ hraw (Numeral.spells_infinity_iff.2 hendless)) (by decide)

theorem exists_limitsFrom {w : Value} (hw : Limits w (.ok defaultTimeout)) (hs : s.get Setting.fetchTimeout.key =
    ((env.lookup Setting.fetchTimeout.environmentName).bind timeoutOfText).getD w) :
    ∃ x, s.readTimeout = .ok x ∧ LimitsFrom env x := by
  cases hload : (env.lookup Setting.fetchTimeout.environmentName).bind timeoutOfText with
  | none =>
    rw [hload] at hs
    refine ⟨_, readTimeout_eq_iff.2 (hs ▸ hw), .usual fun raw x hraw hx => ?_⟩
    by_contra hpos
    rw [hraw, Option.bind_some] at hload
    have hsome := timeoutOfText_eq_some_iff.2 ⟨x, hx, (Bool.not_eq_false _).mp hpos, rfl⟩
    rw [hload] at hsome
    cases hsome
  | some v =>
    rw [hload] at hs
    obtain ⟨raw, hraw, hv⟩ := Option.bind_eq_some_iff.1 hload
    obtain ⟨x, hx, hpos, rfl⟩ := timeoutOfText_eq_some_iff.1 hv
    exact ⟨x, readTimeout_eq_iff.2 (hs ▸ .float hpos), .text hraw hx hpos⟩

theorem get_ofEnvironment (env : Environment) : (ofEnvironment env).get Setting.fetchTimeout.key =
    ((env.lookup Setting.fetchTimeout.environmentName).bind timeoutOfText).getD .null :=
  congrArg (Option.getD · Value.null) (field?_ofEnvironment env .fetchTimeout)

theorem get_update_ofEnvironment (env : Environment) :
    (initial.update (ofEnvironment env)).get Setting.fetchTimeout.key =
      ((env.lookup Setting.fetchTimeout.environmentName).bind timeoutOfText).getD (.float defaultTimeout) := by
  have hinitial : Value.field? Setting.fetchTimeout.key initial = some (.float defaultTimeout) := rfl
  have hload : Value.field? Setting.fetchTimeout.key (ofEnvironment env) =
      (env.lookup Setting.fetchTimeout.environmentName).bind timeoutOfText := field?_ofEnvironment env .fetchTimeout
  rw [get, field?_update (keyed_ofEnvironment env), hload, hinitial]
  cases (env.lookup Setting.fetchTimeout.environmentName).bind timeoutOfText <;> rfl

/-- A limit comes from the environment: it is above zero, and a bound unless the environment sets one that is none. -/
def Heeds (s : Settings) (env : Environment) : Prop :=
  ∃ x, s.readTimeout = .ok x ∧ LimitsFrom env x ∧ x.isPositive = true ∧ (x.IsBound ↔ ¬ Unbounds env)

/-- **The limit of time is a bound unless the number for it overflows.**  Of any settings, whatever value they hold, the
limit is what that value sets.  It is there and is a bound exactly if the value is not an integer that is too large for
a floating point number, for which there is none, and not infinity, which is taken as it is.  From any environment,
read alone or on top of the settings that are there before, there is a limit above zero; it is the number that the text
of its variable spells or the usual one, and it is a bound unless the text names infinity or a decimal too large. -/
theorem readTimeout_bounds_unless_overflow (s : Settings) (env : Environment) :
    (∀ r : Except Failure Binary64, s.readTimeout = r ↔ Limits (s.get Setting.fetchTimeout.key) r) ∧
    ((∃ x, s.readTimeout = .ok x ∧ x.IsBound) ↔ ¬ Overflows (s.get Setting.fetchTimeout.key)) ∧
    Heeds (ofEnvironment env) env ∧ Heeds (initial.update (ofEnvironment env)) env := by
  have hnull : ¬ IsAboveZero .null := nofun
  refine ⟨fun r => readTimeout_eq_iff, (limits_readTimeout s).isBound_iff, ?_, ?_⟩
  · obtain ⟨x, hx, hlimits⟩ := exists_limitsFrom (.usual hnull) (get_ofEnvironment env)
    exact ⟨x, hx, hlimits, hlimits.isPositive, hlimits.isBound_iff⟩
  · obtain ⟨x, hx, hlimits⟩ := exists_limitsFrom (.float isBound_defaultTimeout.1) (get_update_ofEnvironment env)
    exact ⟨x, hx, hlimits, hlimits.isPositive, hlimits.isBound_iff⟩

/-- Settings and an environment under which there is no limit, or one that is no bound. -/
theorem readTimeout_of_overflow :
    readTimeout [(Setting.fetchTimeout.key, .int (10 ^ 400))] = .error (.range .integerTooLarge) ∧
    readTimeout [(Setting.fetchTimeout.key, .float Binary64.infinity)] = .ok Binary64.infinity ∧
    readTimeout (initial.update (ofEnvironment [(Setting.fetchTimeout.environmentName, "1e400")])) =
      .ok Binary64.infinity ∧ ¬ Binary64.infinity.IsBound := by
  have hinteger : (Binary64.overflow : Int) ≤ 10 ^ 400 := by
    have hpow := Binary64.overflow_le_ten_pow
    rw [zpow_ofNat] at hpow
    exact_mod_cast hpow
  refine ⟨readTimeout_eq_iff.2 (.tooLarge hinteger), readTimeout_eq_iff.2 (.float (by decide)), rfl, ?_⟩
  rintro ⟨-, hfinite⟩
  exact absurd hfinite (by decide)

end Settings
end AttestationTrust
