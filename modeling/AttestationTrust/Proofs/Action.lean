import AttestationTrust.World
/-!
# What an action does to the world

Actions one step at a time: each way of building an action, read at a world.  An action keeps to a scope when it is
made of steps that do (`Action.Within`), and then leaves alone what the scope does not cover (`Within.leaves_given`,
`Within.leaves_outside`), fails as the scope allows (`Within.failsBy`), and comes to the same in any two worlds in which
the scope looks the same, whatever has been asked and logged before (`Within.depends`).  Where the elements of a list
are tried in turn, the first that decides does so for the whole list (`iff_exists_first`).
-/
namespace AttestationTrust

theorem except_bind_eq_ok_iff {ε α β : Type} {x : Except ε α} {g : α → Except ε β} {b : β} :
    (x >>= g) = .ok b ↔ ∃ a, x = .ok a ∧ g a = .ok b := by
  cases x <;> simp [bind, Except.bind]

theorem except_bind_eq_error_iff {ε α β : Type} {x : Except ε α} {g : α → Except ε β} {e : ε} :
    (x >>= g) = .error e ↔ x = .error e ∨ ∃ a, x = .ok a ∧ g a = .error e := by
  cases x <;> simp [bind, Except.bind]

theorem map_eq_ok_iff {ε α β : Type} {x : Except ε α} {g : α → β} {b : β} :
    x.map g = .ok b ↔ ∃ a, x = .ok a ∧ g a = b := by
  cases x <;> simp [Except.map]

theorem toOption_eq_some_iff {ε α : Type} {x : Except ε α} {a : α} : x.toOption = some a ↔ x = .ok a := by
  cases x <;> simp [Except.toOption]

@[simp] theorem mapError_ok {ε δ α : Type} (g : ε → δ) (a : α) : (Except.ok a : Except ε α).mapError g = .ok a := rfl

@[simp] theorem mapError_error {ε δ α : Type} (g : ε → δ) (e : ε) :
    (Except.error e : Except ε α).mapError g = .error (g e) := rfl

theorem mapError_eq_ok_iff {ε δ α : Type} {x : Except ε α} {g : ε → δ} {a : α} :
    x.mapError g = .ok a ↔ x = .ok a := by
  cases x <;> simp

theorem mapError_eq_error_iff {ε δ α : Type} {x : Except ε α} {g : ε → δ} {d : δ} :
    x.mapError g = .error d ↔ ∃ e, x = .error e ∧ g e = d := by
  cases x <;> simp

theorem exists_of_mapM_eq_ok {ε α β : Type} {g : α → Except ε β} : ∀ {xs : List α} {ys : List β},
    xs.mapM g = .ok ys → ∀ y ∈ ys, ∃ x ∈ xs, g x = .ok y
  | [], _, h => by
    cases h
    simp
  | x :: xs, ys, h => by
    rw [List.mapM_cons] at h
    obtain ⟨y, hy, h⟩ := except_bind_eq_ok_iff.1 h
    obtain ⟨ys', hys, h⟩ := except_bind_eq_ok_iff.1 h
    cases h
    refine List.forall_mem_cons.2 ⟨⟨x, List.mem_cons_self, hy⟩, fun z hz => ?_⟩
    obtain ⟨x', hx', hg⟩ := exists_of_mapM_eq_ok hys z hz
    exact ⟨x', List.mem_cons_of_mem _ hx', hg⟩

theorem exists_of_mapM_eq_error {ε α β : Type} {g : α → Except ε β} {e : ε} : ∀ {xs : List α},
    xs.mapM g = .error e → ∃ x ∈ xs, g x = .error e
  | [], h => by cases h
  | x :: xs, h => by
    rw [List.mapM_cons] at h
    rcases except_bind_eq_error_iff.1 h with h | ⟨y, -, h⟩
    · exact ⟨x, List.mem_cons_self, h⟩
    · rcases except_bind_eq_error_iff.1 h with h | ⟨ys, -, h⟩
      · obtain ⟨z, hz, hg⟩ := exists_of_mapM_eq_error h
        exact ⟨z, List.mem_cons_of_mem _ hz, hg⟩
      · cases h

/-- The first element of a list that decides is its head, or the head passes. -/
theorem exists_first_cons_iff {α : Type} {Passes Decides : α → Prop} {x : α} {l : List α} :
    (∃ before a after, x :: l = before ++ a :: after ∧ (∀ b ∈ before, Passes b) ∧ Decides a) ↔
      Decides x ∨ Passes x ∧ ∃ before a after, l = before ++ a :: after ∧ (∀ b ∈ before, Passes b) ∧ Decides a := by
  constructor
  · rintro ⟨before, a, after, heq, hbefore, ha⟩
    cases before with
    | nil =>
      cases heq
      exact .inl ha
    | cons b before =>
      cases heq
      obtain ⟨hb, hbefore⟩ := List.forall_mem_cons.1 hbefore
      exact .inr ⟨hb, before, a, after, rfl, hbefore, ha⟩
  · rintro (h | ⟨hx, before, a, after, rfl, hbefore, ha⟩)
    · exact ⟨[], x, l, rfl, by simp, h⟩
    · exact ⟨x :: before, a, after, rfl, List.forall_mem_cons.2 ⟨hx, hbefore⟩, ha⟩

/-- What holds of a list as soon as it is decided by an element, where those before have not decided. -/
theorem iff_exists_first {α : Type} {R : List α → Prop} {Passes Decides : α → Prop} (hnil : ¬ R [])
    (hcons : ∀ a l, R (a :: l) ↔ Decides a ∨ Passes a ∧ R l) : ∀ l, R l ↔
      ∃ before a after, l = before ++ a :: after ∧ (∀ b ∈ before, Passes b) ∧ Decides a
  | [] => by simp [hnil]
  | a :: l => by rw [hcons, iff_exists_first hnil hcons l, exists_first_cons_iff]

/-- Reading a list element by element fails at the first that is not read. -/
theorem mapM_eq_error_iff {ε α β : Type} {g : α → Except ε β} {e : ε} (xs : List α) : xs.mapM g = .error e ↔
    ∃ before x after, xs = before ++ x :: after ∧ (∀ b ∈ before, ∃ y, g b = .ok y) ∧ g x = .error e := by
  refine iff_exists_first (R := fun xs => xs.mapM g = .error e) nofun (fun x xs => ?_) xs
  rw [List.mapM_cons, except_bind_eq_error_iff]
  refine or_congr_right ?_
  constructor
  · rintro ⟨y, hy, h⟩
    obtain h | ⟨ys, -, h⟩ := except_bind_eq_error_iff.1 h
    · exact ⟨⟨y, hy⟩, h⟩
    · cases h
  · rintro ⟨⟨y, hy⟩, h⟩
    exact ⟨y, hy, except_bind_eq_error_iff.2 (.inl h)⟩

/-- Of the elements of a list of which something holds there is a first one. -/
theorem exists_first_of_exists {α : Type} {P : α → Prop} {l : List α} (h : ∃ a ∈ l, P a) :
    ∃ before a after, l = before ++ a :: after ∧ (∀ b ∈ before, ¬ P b) ∧ P a := by
  refine (iff_exists_first (R := fun l => ∃ a ∈ l, P a) (by simp) (fun a l => ?_) l).1 h
  by_cases ha : P a
  · simp [ha]
  · simp [ha]

/-- All elements of a list pass, or there is a first one that does not. -/
theorem forall_mem_or_exists_first {α : Type} (P : α → Prop) (l : List α) :
    (∀ a ∈ l, P a) ∨ ∃ before a after, l = before ++ a :: after ∧ (∀ b ∈ before, P b) ∧ ¬ P a := by
  by_cases h : ∃ a ∈ l, ¬ P a
  · obtain ⟨before, a, after, hl, hbefore, ha⟩ := exists_first_of_exists h
    exact .inr ⟨before, a, after, hl, fun b hb => Classical.not_not.1 (hbefore b hb), ha⟩
  · exact .inl fun a ha => Classical.byContradiction fun hP => h ⟨a, ha, hP⟩

/-- What lookups and logging cannot change. -/
def World.outside (w : World) : Int × FileTree × Network × List (String × Binary64) :=
  (w.clock, w.files, w.network, w.requests)

/-- What requests cannot change either. -/
def World.given (w : World) : Int × FileTree := (w.clock, w.files)

namespace Action

variable {α β γ : Type}

@[simp] theorem pure_apply (a : α) (w : World) : (pure a : Action α) w = (.ok a, w) := rfl

@[simp] theorem throw_apply (f : Failure) (w : World) : (throw f : Action α) w = (.error f, w) := rfl

@[simp] theorem get_apply (w : World) : (get : Action World) w = (.ok w, w) := rfl

@[simp] theorem log_apply (l : Level) (topic text : String) (w : World) :
    log l topic text w = (.ok ⟨⟩, w.record l topic text) := rfl

@[simp] theorem attempt_apply (a : Action α) (w : World) : attempt a w = (.ok (a w).1, (a w).2) := rfl

@[simp] theorem ofExcept_apply (x : Except Failure α) (w : World) : ofExcept x w = (x, w) := by
  cases x <;> rfl

@[simp] theorem ofX509_apply (x : Except X509.Fault α) (w : World) : ofX509 x w = (x.mapError .x509, w) :=
  ofExcept_apply _ w

theorem bind_apply (a : Action α) (g : α → Action β) (w : World) :
    (a >>= g) w = match a w with
      | (.ok x, w') => g x w'
      | (.error f, w') => (.error f, w') := by
  show (ExceptT.bind a g : Action β) w = _
  unfold ExceptT.bind ExceptT.mk
  show (ExceptT.bindCont g (a w).1 : StateM World _) (a w).2 = _
  rcases a w with ⟨x | x, w'⟩ <;> rfl

theorem exists_of_bind_fst_eq_ok {a : Action α} {g : α → Action β} {w : World} {y : β} (h : ((a >>= g) w).1 = .ok y) :
    ∃ x w', a w = (.ok x, w') ∧ (g x w').1 = .ok y := by
  rw [bind_apply] at h
  rcases hw : a w with ⟨f | x, w'⟩
  · rw [hw] at h
    cases h
  · rw [hw] at h
    exact ⟨x, w', rfl, h⟩

theorem bind_of_ok {a : Action α} {w w' : World} {x : α} (g : α → Action β) (h : a w = (.ok x, w')) :
    (a >>= g) w = g x w' := by
  rw [bind_apply, h]

theorem bind_of_error {a : Action α} {w w' : World} {f : Failure} (g : α → Action β) (h : a w = (.error f, w')) :
    (a >>= g) w = (.error f, w') := by
  rw [bind_apply, h]

/-- What an action may look at, whether it may make requests, what it may fail by, and at which levels it may log. -/
structure Scope (γ : Type) where
  view : World → γ
  asks : Prop
  fails : Failure → Prop
  logs : Level → Prop

/-- An action keeps to a scope.  Within any scope it may keep a record of lookups. -/
inductive Within {γ : Type} (S : Scope γ) : {α : Type} → Action α → Prop
  | pure {α : Type} (a : α) : Within S (Pure.pure a : Action α)
  | throw {α : Type} {f : Failure} (h : S.fails f) : Within S (MonadExcept.throw f : Action α)
  | log {l : Level} (h : S.logs l) (topic text : String) : Within S (Action.log l topic text)
  | note (l : Lookup) : Within S (modify fun w => { w with lookups := w.lookups ++ [l] })
  | fetch (ha : S.asks) (hf : ∀ f, S.fails f) (url : String) (timeout : Timeout) : Within S (Action.fetch url timeout)
  | get {α : Type} {g : World → Action α} (hg : ∀ w, Within S (g w)) (hview : ∀ w w', S.view w = S.view w' → g w = g w') :
      Within S (MonadState.get >>= g)
  | attempt {α : Type} {a : Action α} (ha : Within S a) : Within S (Action.attempt a)
  | bind {α β : Type} {a : Action α} {g : α → Action β} (ha : Within S a) (hg : ∀ x, Within S (g x)) : Within S (a >>= g)

/-- An action leaves a view of the world as it was. -/
def Leaves (view : World → γ) (a : Action α) : Prop := ∀ w, view (a w).2 = view w

theorem Leaves.eq {view : World → γ} {a : Action α} (h : Leaves view a) {w w' : World} {x : Except Failure α}
    (hw : a w = (x, w')) : view w' = view w := by
  have := h w
  rwa [hw] at this

theorem Leaves.bind {view : World → γ} {a : Action α} {g : α → Action β} (ha : Leaves view a)
    (hg : ∀ x, Leaves view (g x)) : Leaves view (a >>= g) := by
  intro w
  have h := ha w
  rw [bind_apply]
  cases hw : a w with
  | mk r w' =>
    rw [hw] at h
    cases r with
    | error f => exact h
    | ok x => exact (hg x w').trans h

/-- What an action can fail by. -/
def FailsBy (P : Failure → Prop) (a : Action α) : Prop := ∀ w f, (a w).1 = .error f → P f

theorem FailsBy.bind {P : Failure → Prop} {a : Action α} {g : α → Action β} (ha : FailsBy P a)
    (hg : ∀ x, FailsBy P (g x)) : FailsBy P (a >>= g) := by
  intro w f hf
  rw [bind_apply] at hf
  cases hw : a w with
  | mk r w' =>
    rw [hw] at hf
    cases r with
    | error e =>
      cases hf
      exact ha w f (by rw [hw])
    | ok x => exact hg x w' f hf

end Action

/-- A world comes of another by requests and by records in the log, and by these. -/
def World.Adds (w w' : World) (requests : List (String × Binary64)) (log : List LogRecord) : Prop :=
  w'.requests = w.requests ++ requests ∧ w'.log = w.log ++ log

namespace Action

/-- What an action comes to is a matter of a view of the world alone, and so is the view after it, what it requests and
what it logs. -/
def Depends (view : World → γ) (a : Action α) : Prop :=
  ∀ w₁ w₂, view w₁ = view w₂ → (a w₁).1 = (a w₂).1 ∧ view (a w₁).2 = view (a w₂).2 ∧
    ∃ requests log, w₁.Adds (a w₁).2 requests log ∧ w₂.Adds (a w₂).2 requests log

namespace Depends

variable {view : World → γ}

theorem of_eq {a : Action α} {r : Except Failure α} (h : ∀ w, a w = (r, w)) : Depends view a := by
  intro w₁ w₂ hview
  rw [h, h]
  exact ⟨rfl, hview, [], [], by simp [World.Adds], by simp [World.Adds]⟩

theorem bind {a : Action α} {g : α → Action β} (ha : Depends view a) (hg : ∀ x, Depends view (g x)) :
    Depends view (a >>= g) := by
  intro w₁ w₂ hview
  obtain ⟨hr, hview', requests, log, h₁, h₂⟩ := ha w₁ w₂ hview
  rw [bind_apply, bind_apply]
  rcases hw₁ : a w₁ with ⟨r₁, w₁'⟩
  rcases hw₂ : a w₂ with ⟨r₂, w₂'⟩
  rw [hw₁, hw₂] at hr hview'
  rw [hw₁] at h₁
  rw [hw₂] at h₂
  cases hr
  cases r₁ with
  | error f => exact ⟨rfl, hview', requests, log, h₁, h₂⟩
  | ok x =>
    obtain ⟨hr', hview'', requests', log', h₁', h₂'⟩ := hg x w₁' w₂' hview'
    refine ⟨hr', hview'', requests ++ requests', log ++ log', ⟨?_, ?_⟩, ?_, ?_⟩
    · rw [h₁'.1, h₁.1, List.append_assoc]
    · rw [h₁'.2, h₁.2, List.append_assoc]
    · rw [h₂'.1, h₂.1, List.append_assoc]
    · rw [h₂'.2, h₂.2, List.append_assoc]

end Depends

namespace Within

variable {S : Scope γ} {a : Action α}

theorem ofExcept {x : Except Failure α} (h : ∀ f, x = .error f → S.fails f) : Within S (Action.ofExcept x) := by
  cases x with
  | ok a => exact Within.pure a
  | error f => exact Within.throw (h f rfl)

theorem ofX509 {x : Except X509.Fault α} (h : ∀ f, x = .error f → S.fails (.x509 f)) : Within S (Action.ofX509 x) := by
  cases x with
  | ok a => exact Within.pure a
  | error f => exact Within.throw (h f rfl)

theorem ite {c : Prop} [Decidable c] {a b : Action α} (ha : Within S a) (hb : Within S b) :
    Within S (if c then a else b) := by
  split
  · exact ha
  · exact hb

theorem forM {g : α → Action PUnit} (hg : ∀ x, Within S (g x)) : ∀ l : List α, Within S (forM l g)
  | [] => Within.pure _
  | x :: l => by
    rw [List.forM_cons]
    exact Within.bind (hg x) fun _ => forM hg l

/-- A scope that allows no less may be kept to as well. -/
theorem mono {δ : Type} {T : Scope δ} (h : Within S a) (hview : ∀ w w', T.view w = T.view w' → S.view w = S.view w')
    (hasks : S.asks → T.asks) (hfails : ∀ f, S.fails f → T.fails f) (hlogs : ∀ l, S.logs l → T.logs l) :
    Within T a := by
  induction h with
  | pure a => exact Within.pure a
  | throw h => exact Within.throw (hfails _ h)
  | log h topic text => exact Within.log (hlogs _ h) topic text
  | note l => exact Within.note l
  | fetch ha hf url timeout => exact Within.fetch (hasks ha) (fun f => hfails f (hf f)) url timeout
  | get hg hsame ih => exact Within.get ih fun w w' h => hsame w w' (hview w w' h)
  | attempt ha ih => exact Within.attempt ih
  | bind ha hg iha ihg => exact Within.bind iha ihg

theorem fetch_given (url : String) (timeout : Timeout) : Leaves World.given (Action.fetch url timeout) := by
  intro w
  unfold Action.fetch
  cases timeout.seconds with
  | error f => rfl
  | ok seconds =>
    simp only [World.fetch]
    split <;> rfl

theorem fetch_log (url : String) (timeout : Timeout) : Leaves World.log (Action.fetch url timeout) := by
  intro w
  unfold Action.fetch
  cases timeout.seconds with
  | error f => rfl
  | ok seconds =>
    simp only [World.fetch]
    split <;> rfl

theorem leaves_given (h : Within S a) : Leaves World.given a := by
  induction h with
  | pure a => exact fun _ => rfl
  | throw h => exact fun _ => rfl
  | log h topic text => exact fun _ => rfl
  | note l => exact fun _ => rfl
  | fetch ha hf url timeout => exact fetch_given url timeout
  | get hg hview ih => exact Leaves.bind (fun _ => rfl) ih
  | attempt ha ih => exact ih
  | bind ha hg iha ihg => exact Leaves.bind iha ihg

/-- An action that makes no requests leaves the network alone as well. -/
theorem leaves_outside (h : Within S a) (hasks : ¬ S.asks) : Leaves World.outside a := by
  induction h with
  | pure a => exact fun _ => rfl
  | throw h => exact fun _ => rfl
  | log h topic text => exact fun _ => rfl
  | note l => exact fun _ => rfl
  | fetch ha hf url timeout => exact absurd ha hasks
  | get hg hview ih => exact Leaves.bind (fun _ => rfl) ih
  | attempt ha ih => exact ih
  | bind ha hg iha ihg => exact Leaves.bind iha ihg

/-- An action adds to the log, at the levels that the scope allows. -/
theorem logs (h : Within S a) (w : World) :
    ∃ records, (a w).2.log = w.log ++ records ∧ ∀ r ∈ records, S.logs r.level := by
  induction h generalizing w with
  | pure a => exact ⟨[], by simp, by simp⟩
  | throw h => exact ⟨[], by simp, by simp⟩
  | log h topic text => exact ⟨_, rfl, by simpa using h⟩
  | note l => exact ⟨[], (List.append_nil _).symm, by simp⟩
  | fetch ha hf url timeout => exact ⟨[], by rw [fetch_log, List.append_nil], by simp⟩
  | get hg hview ih => exact ih w w
  | attempt ha ih => exact ih w
  | @bind _ _ a g ha hg iha ihg =>
    obtain ⟨records, hlog, hrecords⟩ := iha w
    rw [bind_apply]
    rcases hw : a w with ⟨f | x, w'⟩
    · rw [hw] at hlog
      exact ⟨records, hlog, hrecords⟩
    · rw [hw] at hlog
      obtain ⟨records', hlog', hrecords'⟩ := ihg x w'
      exact ⟨records ++ records', by rw [hlog', hlog, List.append_assoc],
        List.forall_mem_append.2 ⟨hrecords, hrecords'⟩⟩

theorem failsBy (h : Within S a) : FailsBy S.fails a := by
  induction h with
  | pure a => exact fun _ _ h => nomatch h
  | throw h =>
    intro w f hf
    cases hf
    exact h
  | log h topic text => exact fun _ _ h => nomatch h
  | note l => exact fun _ _ h => nomatch h
  | fetch ha hf url timeout => exact fun _ f _ => hf f
  | get hg hview ih => exact FailsBy.bind (fun _ _ h => nomatch h) ih
  | attempt ha ih => exact fun _ _ h => nomatch h
  | bind ha hg iha ihg => exact FailsBy.bind iha ihg

end Within

/-- A view tells all that a scope looks at, and the replies of the network if requests are made; logging and lookups
are not seen in it. -/
structure Scope.CoveredBy {δ : Type} (S : Scope γ) (view : World → δ) : Prop where
  sees : ∀ w₁ w₂, view w₁ = view w₂ → S.view w₁ = S.view w₂
  record : ∀ w l topic text, view (w.record l topic text) = view w
  note : ∀ (w : World) l, view { w with lookups := w.lookups ++ [l] } = view w
  fetch : S.asks → ∀ url timeout w₁ w₂, view w₁ = view w₂ →
    (w₁.fetch url timeout).1 = (w₂.fetch url timeout).1 ∧ view (w₁.fetch url timeout).2 = view (w₂.fetch url timeout).2

theorem World.fetch_adds (w : World) (url : String) (timeout : Binary64) :
    w.Adds (w.fetch url timeout).2 [(url, timeout)] [] := by
  unfold World.fetch
  dsimp only
  split <;> simp [World.Adds]

theorem Within.depends {δ : Type} {S : Scope γ} {view : World → δ} {a : Action α} (h : Within S a)
    (hcovered : S.CoveredBy view) : Depends view a := by
  induction h with
  | pure a => exact Depends.of_eq fun _ => rfl
  | throw h => exact Depends.of_eq fun _ => rfl
  | @log l h topic text =>
    intro w₁ w₂ hview
    refine ⟨rfl, ?_, [], [⟨l, topic, text⟩], ⟨(List.append_nil _).symm, rfl⟩, (List.append_nil _).symm, rfl⟩
    rw [log_apply, log_apply, hcovered.record, hcovered.record, hview]
  | note l =>
    intro w₁ w₂ hview
    exact ⟨rfl, (hcovered.note w₁ l).trans (hview.trans (hcovered.note w₂ l).symm), [], [],
      ⟨(List.append_nil _).symm, (List.append_nil _).symm⟩, (List.append_nil _).symm, (List.append_nil _).symm⟩
  | fetch ha hf url timeout =>
    cases hs : timeout.seconds with
    | error f => exact Depends.of_eq fun w => by rw [Action.fetch, hs]
    | ok seconds =>
      have hfetch : ∀ w, Action.fetch url timeout w = w.fetch url seconds := fun w => by rw [Action.fetch, hs]
      intro w₁ w₂ hview
      obtain ⟨hr, hview'⟩ := hcovered.fetch ha url seconds w₁ w₂ hview
      rw [hfetch, hfetch]
      exact ⟨hr, hview', _, _, World.fetch_adds w₁ url seconds, World.fetch_adds w₂ url seconds⟩
  | get hg hview ih =>
    intro w₁ w₂ h
    rw [bind_of_ok _ (get_apply w₁), bind_of_ok _ (get_apply w₂), hview w₁ w₂ (hcovered.sees w₁ w₂ h)]
    exact ih w₂ w₁ w₂ h
  | attempt ha ih =>
    intro w₁ w₂ hview
    obtain ⟨hr, hview', h⟩ := ih w₁ w₂ hview
    exact ⟨congrArg Except.ok hr, hview', h⟩
  | bind ha hg iha ihg => exact Depends.bind iha ihg

end Action
end AttestationTrust
