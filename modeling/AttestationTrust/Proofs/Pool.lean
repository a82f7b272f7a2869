import AttestationTrust.Proofs.Exchange
import Mathlib.Data.List.Forall2
import Mathlib.Logic.Relation
import Mathlib.Tactic.Choose
/-!
# Work that is shared by workers

What is done at once in a world can be cut into steps (`Script`), so that the steps of several jobs may come in between
each other.  A pool has a number of workers; each takes the first job that waits, makes its steps, and is free again when
it is done (`Pool.Step`).  Whatever the order of the steps, each job has come from its script, and what has been done in
the world is woven of what was done on the way of each (`Woven`, `Pool.Follows.steps`).  What a job does, and what it comes
to, depends on nothing but how its own requests were answered (`Script.IsTimeless.act_of_reaches`).  With a worker at all,
no pool gets stuck (`Pool.exists_isDone`).
-/
namespace AttestationTrust

open AttestationTrust.Action (Scope Within)

/-- A row is woven of strands: it holds what they hold, and each of them in its order. -/
structure Woven {δ : Type} (row : List δ) (strands : List (List δ)) : Prop where
  perm : row.Perm strands.flatten
  sublist : ∀ s ∈ strands, s.Sublist row

namespace Woven

variable {δ ε : Type} {row : List δ} {strands front back : List (List δ)} {s : List δ}

theorem nil (h : ∀ s ∈ strands, s = []) : Woven [] strands where
  perm := .of_eq (List.flatten_eq_nil_iff.2 h).symm
  sublist := fun s hs => by rw [h s hs]

theorem flatten (strands : List (List δ)) : Woven strands.flatten strands :=
  ⟨.refl _, fun _ hs => List.sublist_flatten_of_mem hs⟩

theorem mem_iff {d : δ} (h : Woven row strands) : d ∈ row ↔ ∃ s ∈ strands, d ∈ s :=
  h.perm.mem_iff.trans List.mem_flatten

/-- One strand goes on, and the row with it. -/
theorem extend (h : Woven row (front ++ s :: back)) (here : List δ) :
    Woven (row ++ here) (front ++ (s ++ here) :: back) where
  perm := by
    have hmove : (front.flatten ++ (s ++ back.flatten) ++ here).Perm (front.flatten ++ (s ++ here ++ back.flatten)) := by
      rw [List.append_assoc, List.append_assoc, List.append_assoc]
      exact (List.perm_append_comm.append_left s).append_left _
    have hperm := h.perm
    simp only [List.flatten_append, List.flatten_cons] at hperm ⊢
    exact (hperm.append_right here).trans hmove
  sublist := by
    have hkeep : ∀ {t}, t ∈ front ++ s :: back → t.Sublist (row ++ here) := fun ht =>
      (h.sublist _ ht).trans (List.sublist_append_left row here)
    intro t ht
    rcases List.mem_append.1 ht with ht | ht
    · exact hkeep (by simp [ht])
    · rcases List.mem_cons.1 ht with rfl | ht
      · exact (h.sublist s (by simp)).append (.refl here)
      · exact hkeep (by simp [ht])

theorem filterMap (h : Woven row strands) (g : δ → Option ε) :
    Woven (row.filterMap g) (strands.map fun s => s.filterMap g) where
  perm := (h.perm.filterMap g).trans (.of_eq (List.filterMap_flatten ..))
  sublist := by
    intro t ht
    obtain ⟨s, hs, rfl⟩ := List.mem_map.1 ht
    exact (h.sublist s hs).filterMap g

end Woven

/-- What a step does that can be seen from outside: a request within a bound on its time, with what came of it, or a
record in the log. -/
inductive Deed where
  | asked (x : Exchange) (seconds : Binary64)
  | logged (r : LogRecord)

namespace Deed

def exchange? : Deed → Option Exchange
  | .asked x _ => some x
  | .logged _ => none

def request? : Deed → Option (String × Binary64)
  | .asked x seconds => some (x.url, seconds)
  | .logged _ => none

def record? : Deed → Option LogRecord
  | .asked _ _ => none
  | .logged r => some r

end Deed

/-- A world comes of another by deeds in a row.  Time may have passed. -/
structure World.Does (w : World) (deeds : List Deed) (w' : World) : Prop where
  network : w.network.Serves (deeds.filterMap Deed.exchange?) w'.network
  requests : w'.requests = w.requests ++ deeds.filterMap Deed.request?
  log : w'.log = w.log ++ deeds.filterMap Deed.record?
  files : w'.files = w.files

namespace World.Does

variable {w w' w'' : World} {deeds deeds' : List Deed}

/-- Nothing can be seen of a change of the clock, or of the lookups. -/
theorem of_outside (h : (w'.files, w'.network, w'.requests) = (w.files, w.network, w.requests))
    (hlog : w'.log = w.log) : w.Does [] w' := by
  simp only [Prod.mk.injEq] at h
  obtain ⟨hfiles, hnetwork, hrequests⟩ := h
  exact ⟨hnetwork ▸ .nil, by simp [hrequests], by simp [hlog], hfiles⟩

theorem append (h : w.Does deeds w') (h' : w'.Does deeds' w'') : w.Does (deeds ++ deeds') w'' where
  network := by
    rw [List.filterMap_append]
    exact h.network.append h'.network
  requests := by rw [h'.requests, h.requests, List.filterMap_append, List.append_assoc]
  log := by rw [h'.log, h.log, List.filterMap_append, List.append_assoc]
  files := h'.files.trans h.files

theorem asked (w : World) (url : String) (seconds : Binary64) :
    w.Does [.asked ⟨url, (w.network.answer url).1⟩ seconds]
      { w with network := (w.network.answer url).2, requests := w.requests ++ [(url, seconds)] } :=
  ⟨.cons rfl .nil, rfl, (List.append_nil _).symm, rfl⟩

theorem logged (w : World) (r : LogRecord) : w.Does [.logged r] { w with log := w.log ++ [r] } :=
  ⟨.nil, (List.append_nil _).symm, rfl, rfl⟩

theorem mem_requests {timeout : Timeout} {x : Exchange} {seconds : Binary64} {urls : List String}
    (h : deeds.filterMap Deed.request? = timeout.requests urls) (hx : .asked x seconds ∈ deeds) :
    timeout.seconds = .ok seconds := by
  have hmem : (x.url, seconds) ∈ timeout.requests urls := h ▸ List.mem_filterMap.2 ⟨_, hx, rfl⟩
  unfold Timeout.requests at hmem
  split at hmem
  · cases hmem
  · next heq =>
    obtain ⟨url, -, hurl⟩ := List.mem_map.1 hmem
    rw [heq, (Prod.mk.inj hurl).2]

/-- Deeds that keep to one bound on the time of a request are exchanges, but for the time they take themselves. -/
theorem exchanged {timeout : Timeout} (h : w.Does deeds w')
    (hbound : ∀ x seconds, .asked x seconds ∈ deeds → timeout.seconds = .ok seconds) :
    w.Exchanged timeout (deeds.filterMap Deed.exchange?) { w' with clock := w.clock } := by
  cases ht : timeout.seconds with
  | error f =>
    have hnone : deeds.filterMap Deed.exchange? = [] ∧ deeds.filterMap Deed.request? = [] := by
      constructor
      all_goals
        refine List.filterMap_eq_nil_iff.2 fun d hd => ?_
        cases d with
        | asked x seconds => cases ht.symm.trans (hbound x seconds hd)
        | logged r => rfl
    have hnetwork := h.network
    have hrequests := h.requests
    rw [hnone.1] at hnetwork
    rw [hnone.2, List.append_nil] at hrequests
    rw [hnone.1]
    exact .of_outside timeout (by simp [World.outside, h.files, hrequests, hnetwork.unique .nil])
  | ok seconds =>
    obtain ⟨hserved, hnetwork⟩ := h.network.eq ht
    have hrequests : deeds.filterMap Deed.request? =
        timeout.requests ((deeds.filterMap Deed.exchange?).map Exchange.url) := by
      unfold Timeout.requests
      rw [ht]
      dsimp only
      rw [List.map_map, List.map_filterMap]
      refine List.filterMap_congr fun d hd => ?_
      cases d with
      | asked x seconds' =>
        cases ht.symm.trans (hbound x seconds' hd)
        rfl
      | logged r => rfl
    exact ⟨hserved, hnetwork, by rw [← hrequests]; exact h.requests, by simp [World.given, h.files]⟩

end World.Does

/-- What is done step by step, and what comes of it in the end. -/
inductive Script (α : Type) where
  | ends (r : Except Failure α)
  | fetch (url : String) (timeout : Timeout) (next : Except Failure Bytes → Script α)
  | log (r : LogRecord) (next : Script α)
  | note (l : Lookup) (next : Script α)
  | clock (next : Int → Script α)

namespace Script

variable {α β : Type}

/-- All the steps at once. -/
def act : Script α → Action α
  | .ends r => fun w => (r, w)
  | .fetch url timeout next => fun w => (next (Action.fetch url timeout w).1).act (Action.fetch url timeout w).2
  | .log r next => fun w => next.act { w with log := w.log ++ [r] }
  | .note l next => fun w => next.act { w with lookups := w.lookups ++ [l] }
  | .clock next => fun w => (next w.clock).act w

/-- One script after the other. -/
def andThen (s : Script α) (k : Except Failure α → Script β) : Script β :=
  match s with
  | .ends r => k r
  | .fetch url timeout next => .fetch url timeout fun x => (next x).andThen k
  | .log r next => .log r (next.andThen k)
  | .note l next => .note l (next.andThen k)
  | .clock next => .clock fun t => (next t).andThen k

theorem act_andThen (k : Except Failure α → Script β) : ∀ (s : Script α) (w : World),
    (s.andThen k).act w = (k (s.act w).1).act (s.act w).2
  | .ends _, _ => rfl
  | .fetch _ _ next, _ => act_andThen k (next _) _
  | .log _ next, _ => act_andThen k next _
  | .note _ next, _ => act_andThen k next _
  | .clock next, _ => act_andThen k (next _) _

/-- What follows a success; a failure ends a script. -/
def follow (k : α → Script β) : Except Failure α → Script β
  | .ok x => k x
  | .error f => .ends (.error f)

/-- A script that never looks at the clock. -/
inductive IsTimeless : Script α → Prop
  | ends (r : Except Failure α) : IsTimeless (.ends r)
  | fetch {url : String} {timeout : Timeout} {next : Except Failure Bytes → Script α} (h : ∀ x, (next x).IsTimeless) :
      IsTimeless (.fetch url timeout next)
  | log {r : LogRecord} {next : Script α} (h : next.IsTimeless) : IsTimeless (.log r next)
  | note {l : Lookup} {next : Script α} (h : next.IsTimeless) : IsTimeless (.note l next)

theorem IsTimeless.andThen {s : Script α} {k : Except Failure α → Script β} (h : s.IsTimeless)
    (hk : ∀ r, (k r).IsTimeless) : (s.andThen k).IsTimeless := by
  induction h with
  | ends r => exact hk r
  | fetch _ ih => exact .fetch ih
  | log _ ih => exact .log ih
  | note _ ih => exact .note ih

/-- An action that looks at nothing is done by a script that does not either. -/
theorem exists_of_within {γ : Type} {S : Scope γ} {a : Action α} (h : Within S a)
    (hview : ∀ w w', S.view w = S.view w') : ∃ s : Script α, s.IsTimeless ∧ s.act = a := by
  induction h with
  | pure a => exact ⟨.ends (.ok a), .ends _, rfl⟩
  | @throw _ f h => exact ⟨.ends (.error f), .ends _, rfl⟩
  | @log l h topic text => exact ⟨.log ⟨l, topic, text⟩ (.ends (.ok ⟨⟩)), .log (.ends _), rfl⟩
  | note l => exact ⟨.note l (.ends (.ok ⟨⟩)), .note (.ends _), rfl⟩
  | fetch ha hf url timeout => exact ⟨.fetch url timeout .ends, .fetch .ends, rfl⟩
  | @get _ g hg hsame ih =>
    -- all worlds look the same, so what follows in one of them follows in each
    obtain ⟨s, hs, hact⟩ := ih ⟨0, .empty, .empty, [], [], []⟩
    refine ⟨s, hs, ?_⟩
    funext w
    rw [Action.bind_of_ok _ (Action.get_apply w), hact, hsame w _ (hview w _)]
  | attempt ha ih =>
    obtain ⟨s, hs, hact⟩ := ih
    refine ⟨s.andThen fun r => .ends (.ok r), hs.andThen fun r => .ends _, ?_⟩
    funext w
    rw [act_andThen, hact]
    rfl
  | @bind _ _ a g ha hg iha ihg =>
    obtain ⟨s, hs, hact⟩ := iha
    choose t ht htact using ihg
    refine ⟨s.andThen (follow t), hs.andThen fun r => ?_, ?_⟩
    · cases r with
      | ok x => exact ht x
      | error f => exact .ends _
    · funext w
      rw [act_andThen, hact, Action.bind_apply]
      rcases a w with ⟨f | x, w'⟩
      · rfl
      · exact congrFun (htact x) w'

/-! ## Steps -/

/-- The first step in a world, with what is left of the script and the world after it. -/
def step? : Script α → World → Option (Script α × World)
  | .ends _, _ => none
  | .fetch url timeout next, w => some (next (Action.fetch url timeout w).1, (Action.fetch url timeout w).2)
  | .log r next, w => some (next, { w with log := w.log ++ [r] })
  | .note l next, w => some (next, { w with lookups := w.lookups ++ [l] })
  | .clock next, w => some (next w.clock, w)

/-- A step in whatever world, and what is done in it.  A request may be answered by anything, and the clock may show any
time. -/
inductive Moves : Script α → List Deed → Script α → Prop
  | fetch {url : String} {timeout : Timeout} {next : Except Failure Bytes → Script α} {seconds : Binary64}
      (h : timeout.seconds = .ok seconds) (reply : Except Failure Bytes) :
      Moves (.fetch url timeout next) [.asked ⟨url, reply⟩ seconds] (next reply)
  | unasked {url : String} {timeout : Timeout} {next : Except Failure Bytes → Script α} {f : Failure}
      (h : timeout.seconds = .error f) : Moves (.fetch url timeout next) [] (next (.error f))
  | log (r : LogRecord) (next : Script α) : Moves (.log r next) [.logged r] next
  | note (l : Lookup) (next : Script α) : Moves (.note l next) [] next
  | clock (t : Int) (next : Int → Script α) : Moves (.clock next) [] (next t)

/-- Steps in a row, and what is done in them. -/
inductive Reaches (s : Script α) : List Deed → Script α → Prop
  | refl : Reaches s [] s
  | tail {t u : Script α} {before here : List Deed} (h : Reaches s before t) (hmove : Moves t here u) :
      Reaches s (before ++ here) u

variable {s t : Script α} {w w' : World} {deeds : List Deed} {r : Except Failure α}

theorem moves_of_step? (h : s.step? w = some (t, w')) : ∃ deeds, Moves s deeds t ∧ w.Does deeds w' := by
  cases s with
  | ends r => cases h
  | fetch url timeout next =>
    cases h
    cases ht : timeout.seconds with
    | error f =>
      rw [Action.fetch_of_error ht]
      exact ⟨[], .unasked ht, .of_outside rfl rfl⟩
    | ok seconds =>
      rw [Action.fetch_of_ok ht]
      exact ⟨_, .fetch ht _, .asked w url seconds⟩
  | log r next =>
    cases h
    exact ⟨[.logged r], .log r _, .logged w r⟩
  | note l next =>
    cases h
    exact ⟨[], .note l _, .of_outside rfl rfl⟩
  | clock next =>
    cases h
    exact ⟨[], .clock w.clock next, .of_outside rfl rfl⟩

theorem Reaches.head {u : Script α} {here after : List Deed} (hmove : Moves s here t) (h : Reaches t after u) :
    Reaches s (here ++ after) u := by
  induction h with
  | refl =>
    have := Reaches.tail .refl hmove
    rwa [List.nil_append, ← List.append_nil here] at this
  | tail _ hlast ih =>
    rw [← List.append_assoc]
    exact ih.tail hlast

theorem Reaches.cases_head {u : Script α} (h : Reaches s deeds u) : (deeds = [] ∧ u = s) ∨
    ∃ t here after, deeds = here ++ after ∧ Moves s here t ∧ Reaches t after u := by
  induction h with
  | refl => exact .inl ⟨rfl, rfl⟩
  | @tail t u before here h hmove ih =>
    rcases ih with ⟨rfl, rfl⟩ | ⟨v, first, rest, rfl, hfirst, hrest⟩
    · exact .inr ⟨u, here, [], by simp, hmove, .refl⟩
    · exact .inr ⟨v, first, rest ++ here, by simp, hfirst, hrest.tail hmove⟩

/-- A script that has ended goes no further. -/
theorem Reaches.of_ends (h : Reaches (.ends r) deeds t) : deeds = [] ∧ t = .ends r := by
  rcases h.cases_head with h | ⟨_, _, _, -, hmove, -⟩
  · exact h
  · cases hmove

theorem reaches_of_log {record : LogRecord} (h : Reaches (.log record s) deeds (.ends r)) :
    ∃ rest, deeds = .logged record :: rest ∧ Reaches s rest (.ends r) := by
  rcases h.cases_head with ⟨-, h⟩ | ⟨_, _, rest, rfl, hmove, hrest⟩
  · cases h
  · cases hmove
    exact ⟨rest, rfl, hrest⟩

/-- A script that has one record left to log. -/
theorem reaches_of_log_ends {record : LogRecord} {x : Except Failure α}
    (h : Reaches (.log record (.ends x)) deeds (.ends r)) : r = x ∧ deeds = [.logged record] := by
  obtain ⟨rest, rfl, hrest⟩ := reaches_of_log h
  obtain ⟨rfl, hends⟩ := hrest.of_ends
  cases hends
  exact ⟨rfl, rfl⟩

theorem reaches_of_clock {next : Int → Script α} (h : Reaches (.clock next) deeds (.ends r)) :
    ∃ time, Reaches (next time) deeds (.ends r) := by
  rcases h.cases_head with ⟨-, h⟩ | ⟨_, _, rest, rfl, hmove, hrest⟩
  · cases h
  · cases hmove
    exact ⟨_, hrest⟩

/-- A script goes on with the other when it has ended. -/
theorem reaches_andThen_cases {k : Except Failure α → Script β} {x : Except Failure β} :
    ∀ {s : Script α} {deeds : List Deed}, Reaches (s.andThen k) deeds (.ends x) →
      ∃ r before after, deeds = before ++ after ∧ Reaches s before (.ends r) ∧ Reaches (k r) after (.ends x)
  | .ends r, deeds, h => ⟨r, [], deeds, rfl, .refl, h⟩
  | .fetch url timeout next, _, h => by
    rcases h.cases_head with ⟨-, h⟩ | ⟨_, _, _, rfl, hmove, hrest⟩
    · cases h
    · cases hmove with
      | fetch ht reply =>
        obtain ⟨r, before, after, rfl, hs, hk⟩ := reaches_andThen_cases hrest
        exact ⟨r, _ :: before, after, rfl, .head (.fetch ht reply) hs, hk⟩
      | unasked ht =>
        obtain ⟨r, before, after, rfl, hs, hk⟩ := reaches_andThen_cases hrest
        exact ⟨r, before, after, rfl, .head (.unasked ht) hs, hk⟩
  | .log record next, _, h => by
    obtain ⟨_, rfl, hrest⟩ := reaches_of_log h
    obtain ⟨r, before, after, rfl, hs, hk⟩ := reaches_andThen_cases hrest
    exact ⟨r, .logged record :: before, after, rfl, .head (.log record next) hs, hk⟩
  | .note l next, _, h => by
    rcases h.cases_head with ⟨-, h⟩ | ⟨_, _, _, rfl, hmove, hrest⟩
    · cases h
    · cases hmove
      obtain ⟨r, before, after, rfl, hs, hk⟩ := reaches_andThen_cases hrest
      exact ⟨r, before, after, rfl, .head (.note l next) hs, hk⟩
  | .clock next, _, h => by
    obtain ⟨time, hrest⟩ := reaches_of_clock h
    obtain ⟨r, before, after, rfl, hs, hk⟩ := reaches_andThen_cases hrest
    exact ⟨r, before, after, rfl, .head (.clock time next) hs, hk⟩

theorem act_of_step? (h : s.step? w = some (t, w')) : s.act w = t.act w' := by
  cases s <;> cases h <;> rfl

/-- A step of a script that never looks at the clock is made in every world that answers as it was answered there. -/
theorem IsTimeless.step?_of_moves (hs : s.IsTimeless) (h : Moves s deeds t) {n : Network}
    (hserves : w.network.Serves (deeds.filterMap Deed.exchange?) n) :
    t.IsTimeless ∧ ∃ w', s.step? w = some (t, w') ∧ w.Does deeds w' := by
  cases h with
  | @fetch url timeout next seconds hseconds reply =>
    obtain _ | ⟨hanswer, -⟩ := hserves
    obtain rfl : (w.network.answer url).1 = reply := congrArg Prod.fst hanswer
    cases hs with
    | fetch hs => exact ⟨hs _, _, by rw [step?, Action.fetch_of_ok hseconds], .asked w url seconds⟩
  | unasked hseconds =>
    cases hs with
    | fetch hs => exact ⟨hs _, _, by rw [step?, Action.fetch_of_error hseconds], .of_outside rfl rfl⟩
  | log r next =>
    cases hs with
    | log hs => exact ⟨hs, _, rfl, .logged w r⟩
  | note l next =>
    cases hs with
    | note hs => exact ⟨hs, _, rfl, .of_outside rfl rfl⟩
  | clock => cases hs

/-- So it comes to the same step by step as at once, wherever requests are answered as they were on the way. -/
theorem IsTimeless.act_of_reaches (hs : s.IsTimeless) (h : Reaches s deeds t) {n : Network}
    (hserves : w.network.Serves (deeds.filterMap Deed.exchange?) n) :
    t.IsTimeless ∧ ∃ w', s.act w = t.act w' ∧ w.Does deeds w' := by
  induction h generalizing n with
  | refl => exact ⟨hs, w, rfl, .of_outside rfl rfl⟩
  | tail _ hmove ih =>
    rw [List.filterMap_append] at hserves
    obtain ⟨m, hbefore, hhere⟩ := hserves.exists_of_append
    obtain ⟨ht, v, hact, hdoes⟩ := ih hbefore
    obtain rfl := hdoes.network.unique hbefore
    obtain ⟨hu, w', hstep, hdoes'⟩ := ht.step?_of_moves hmove hhere
    exact ⟨hu, w', hact.trans (act_of_step? hstep), hdoes.append hdoes'⟩

/-- What is done at once can be done step by step. -/
theorem reaches_act (s : Script α) (w : World) :
    ∃ deeds, Reaches s deeds (.ends (s.act w).1) ∧ w.Does deeds (s.act w).2 := by
  have hfirst : ∀ {s t : Script α} {w w' : World}, s.step? w = some (t, w') →
      (∃ deeds, Reaches t deeds (.ends (t.act w').1) ∧ w'.Does deeds (t.act w').2) →
      ∃ deeds, Reaches s deeds (.ends (s.act w).1) ∧ w.Does deeds (s.act w).2 := by
    rintro s t w w' hstep ⟨after, hreaches, hafter⟩
    obtain ⟨here, hmove, hhere⟩ := moves_of_step? hstep
    rw [act_of_step? hstep]
    exact ⟨here ++ after, .head hmove hreaches, hhere.append hafter⟩
  induction s generalizing w with
  | ends r => exact ⟨[], .refl, .of_outside rfl rfl⟩
  | fetch url timeout next ih => exact hfirst rfl (ih _ _)
  | log r next ih => exact hfirst rfl (ih _)
  | note l next ih => exact hfirst rfl (ih _)
  | clock next ih => exact hfirst rfl (ih _ _)

end Script

/-! ## A pool of workers -/

/-- A script that waits for a worker, that a worker is at, or that is done. -/
inductive Job (α : Type) where
  | waiting (s : Script α)
  | running (s : Script α)
  | finished (r : Except Failure α)

namespace Job

variable {α : Type}

def isWaiting : Job α → Bool
  | .waiting _ => true
  | _ => false

def isRunning : Job α → Bool
  | .running _ => true
  | _ => false

def isFinished : Job α → Bool
  | .finished _ => true
  | _ => false

/-- A job has come from a script, and this was done on the way. -/
inductive From (s : Script α) : List Deed → Job α → Prop
  | waiting : From s [] (.waiting s)
  | running {deeds : List Deed} {t : Script α} (h : s.Reaches deeds t) : From s deeds (.running t)
  | finished {deeds : List Deed} {r : Except Failure α} (h : s.Reaches deeds (.ends r)) : From s deeds (.finished r)

end Job

/-- Jobs in one world, in the order in which they were handed in. -/
structure Pool (α : Type) where
  world : World
  jobs : List (Job α)

namespace Pool

variable {α : Type}

def start (w : World) (scripts : List (Script α)) : Pool α := ⟨w, scripts.map .waiting⟩

/-- What can happen next: a worker takes the first job that waits, or makes a step in one that has been taken, or is done
with it; and time passes. -/
inductive Step (size : Nat) : Pool α → Pool α → Prop
  | take {w : World} {before after : List (Job α)} {s : Script α} (hfirst : ∀ j ∈ before, j.isWaiting = false)
      (hfree : (before ++ after).countP Job.isRunning < size) :
      Step size ⟨w, before ++ .waiting s :: after⟩ ⟨w, before ++ .running s :: after⟩
  | advance {w w' : World} {before after : List (Job α)} {s t : Script α} (h : s.step? w = some (t, w')) :
      Step size ⟨w, before ++ .running s :: after⟩ ⟨w', before ++ .running t :: after⟩
  | finish {w : World} {before after : List (Job α)} {r : Except Failure α} :
      Step size ⟨w, before ++ .running (.ends r) :: after⟩ ⟨w, before ++ .finished r :: after⟩
  | tick {w : World} {jobs : List (Job α)} (clock : Int) : Step size ⟨w, jobs⟩ ⟨{ w with clock := clock }, jobs⟩

/-- Steps in any order, of any workers. -/
abbrev Steps (size : Nat) : Pool α → Pool α → Prop := Relation.ReflTransGen (Step size)

/-- Each job of a pool has come from its script, and what was done is woven of what was done on the way of each. -/
def Follows (w : World) (scripts : List (Script α)) (pool : Pool α) : Prop :=
  ∃ (histories : List (Script α × List Deed)) (deeds : List Deed), histories.map Prod.fst = scripts ∧
    List.Forall₂ (fun h j => Job.From h.1 h.2 j) histories pool.jobs ∧
    w.Does deeds pool.world ∧ Woven deeds (histories.map Prod.snd)

theorem exists_forall₂_replace {β γ : Type} {R : β → γ → Prop} : ∀ {before after : List γ} {c : γ} {l : List β},
    List.Forall₂ R l (before ++ c :: after) → ∃ front b back, l = front ++ b :: back ∧ R b c ∧
      ∀ b' c', R b' c' → List.Forall₂ R (front ++ b' :: back) (before ++ c' :: after)
  | [], _, _, _, .cons h hrest => ⟨[], _, _, rfl, h, fun _ _ h' => .cons h' hrest⟩
  | _ :: _, _, _, _, .cons h hrest => by
    obtain ⟨front, b, back, rfl, hb, hreplace⟩ := exists_forall₂_replace hrest
    exact ⟨_ :: front, b, back, rfl, hb, fun b' c' h' => .cons h (hreplace b' c' h')⟩

variable {w v v' : World} {scripts : List (Script α)} {pool pool' : Pool α} {size : Nat}

/-- One job goes on, and something is done. -/
theorem Follows.replace {before after : List (Job α)} {j j' : Job α} {here : List Deed}
    (h : Follows w scripts ⟨v, before ++ j :: after⟩) (hv : v.Does here v')
    (hj : ∀ s deeds, Job.From s deeds j → Job.From s (deeds ++ here) j') :
    Follows w scripts ⟨v', before ++ j' :: after⟩ := by
  obtain ⟨histories, deeds, rfl, hfrom, hdoes, hwoven⟩ := h
  obtain ⟨front, ⟨s, trail⟩, back, rfl, hs, hreplace⟩ := exists_forall₂_replace hfrom
  refine ⟨front ++ (s, trail ++ here) :: back, deeds ++ here, by simp, hreplace (s, trail ++ here) j' (hj s trail hs),
    hdoes.append hv, ?_⟩
  rw [List.map_append, List.map_cons] at hwoven ⊢
  exact hwoven.extend here

theorem follows_start (w : World) (scripts : List (Script α)) : Follows w scripts (start w scripts) := by
  refine ⟨scripts.map fun s => (s, []), [], by simp [Function.comp_def], ?_, .of_outside rfl rfl, ?_⟩
  · rw [start, List.forall₂_map_left_iff, List.forall₂_map_right_iff]
    exact List.forall₂_same.2 fun s _ => .waiting
  · rw [List.map_map]
    exact .nil fun s hs => by
      obtain ⟨_, -, rfl⟩ := List.mem_map.1 hs
      rfl

/-- **One step** of a pool, of whichever worker. -/
theorem Follows.step (h : Follows w scripts pool) (hstep : Step size pool pool') : Follows w scripts pool' := by
  cases hstep with
  | take hfirst hfree =>
    refine h.replace (.of_outside rfl rfl) fun s deeds hs => ?_
    cases hs
    exact .running .refl
  | advance hs =>
    obtain ⟨here, hmove, hdoes⟩ := Script.moves_of_step? hs
    refine h.replace hdoes fun s deeds hs => ?_
    cases hs with
    | running hs => exact .running (hs.tail hmove)
  | finish =>
    refine h.replace (.of_outside rfl rfl) fun s deeds hs => ?_
    cases hs with
    | running hs =>
      rw [List.append_nil]
      exact .finished hs
  | @tick v jobs clock =>
    obtain ⟨histories, deeds, hscripts, hfrom, hdoes, hwoven⟩ := h
    have htick : v.Does [] { v with clock := clock } := .of_outside rfl rfl
    exact ⟨histories, deeds, hscripts, hfrom, List.append_nil deeds ▸ hdoes.append htick, hwoven⟩

theorem Follows.steps (h : Follows w scripts pool) (hsteps : Steps size pool pool') : Follows w scripts pool' := by
  induction hsteps with
  | refl => exact h
  | tail _ hstep ih => exact ih.step hstep

/-- A pool whose jobs are done. -/
def IsDone (pool : Pool α) (results : List (Except Failure α)) : Prop := pool.jobs = results.map .finished

/-- What comes of the jobs of a pool that is done: each script has come to its end, by what was done on its way. -/
theorem Follows.of_isDone {results : List (Except Failure α)} (h : Follows w scripts pool)
    (hdone : pool.IsDone results) : ∃ (endings : List (List Deed × Except Failure α)) (deeds : List Deed),
      List.Forall₂ (fun s x => Script.Reaches s x.1 (.ends x.2)) scripts endings ∧ endings.map Prod.snd = results ∧
      w.Does deeds pool.world ∧ Woven deeds (endings.map Prod.fst) := by
  obtain ⟨histories, deeds, rfl, hfrom, hdoes, hwoven⟩ := h
  rw [hdone, List.forall₂_map_right_iff] at hfrom
  have hends : ∃ endings : List (List Deed × Except Failure α),
      List.Forall₂ (fun s x => Script.Reaches s x.1 (.ends x.2)) (histories.map Prod.fst) endings ∧
      endings.map Prod.snd = results ∧ endings.map Prod.fst = histories.map Prod.snd := by
    clear hwoven hdone
    induction hfrom with
    | nil => exact ⟨[], .nil, rfl, rfl⟩
    | @cons history r _ _ h _ ih =>
      obtain ⟨s, trail⟩ := history
      obtain ⟨endings, hends, hresults, htrails⟩ := ih
      cases h with
      | finished h => exact ⟨(trail, r) :: endings, .cons h hends, congrArg _ hresults, congrArg _ htrails⟩
  obtain ⟨endings, hends, hresults, htrails⟩ := hends
  exact ⟨endings, deeds, hends, hresults, hdoes, htrails ▸ hwoven⟩

/-- A worker that is at a job can get it done. -/
theorem exists_steps_of_running (size : Nat) (before after : List (Job α)) (s : Script α) (v : World) : ∃ v' r,
    Steps size ⟨v, before ++ .running s :: after⟩ ⟨v', before ++ .finished r :: after⟩ := by
  have hgo : ∀ {s t : Script α} {v v' : World}, s.step? v = some (t, v') →
      (∃ v'' r, Steps size ⟨v', before ++ .running t :: after⟩ ⟨v'', before ++ .finished r :: after⟩) →
      ∃ v'' r, Steps size ⟨v, before ++ .running s :: after⟩ ⟨v'', before ++ .finished r :: after⟩ := by
    rintro s t v v' hstep ⟨v'', r, hsteps⟩
    exact ⟨v'', r, .head (.advance hstep) hsteps⟩
  induction s generalizing v with
  | ends r => exact ⟨v, r, .single .finish⟩
  | fetch url timeout next ih => exact hgo rfl (ih _ _)
  | log r next ih => exact hgo rfl (ih _)
  | note l next ih => exact hgo rfl (ih _)
  | clock next ih => exact hgo rfl (ih _ _)

theorem exists_isDone_of_finished : ∀ {jobs : List (Job α)}, (∀ j ∈ jobs, j.isFinished = true) →
    ∃ results : List (Except Failure α), jobs = results.map .finished
  | [], _ => ⟨[], rfl⟩
  | j :: jobs, h => by
    obtain ⟨hj, hjobs⟩ := List.forall_mem_cons.1 h
    obtain ⟨results, rfl⟩ := exists_isDone_of_finished hjobs
    cases j with
    | finished r => exact ⟨r :: results, rfl⟩
    | _ => cases hj

/-- How many jobs are not done. -/
def unfinished (jobs : List (Job α)) : Nat := jobs.countP fun j => !j.isFinished

theorem unfinished_finished_lt {before after : List (Job α)} {j : Job α} (hj : j.isFinished = false)
    (r : Except Failure α) : unfinished (before ++ .finished r :: after) < unfinished (before ++ j :: after) := by
  have hr : (Job.finished r).isFinished = true := rfl
  simp [unfinished, hj, hr]

/-- While a job is not done, a worker can get one more done. -/
theorem exists_steps_of_unfinished (hsize : 0 < size) (h : ∃ j ∈ pool.jobs, j.isFinished = false) :
    ∃ pool', Steps size pool pool' ∧ unfinished pool'.jobs < unfinished pool.jobs := by
  obtain ⟨w, jobs⟩ := pool
  by_cases hrunning : ∃ j ∈ jobs, j.isRunning = true
  · obtain ⟨j, hj, hjrunning⟩ := hrunning
    obtain ⟨before, after, rfl⟩ := List.append_of_mem hj
    cases j with
    | running s =>
      obtain ⟨v', r, hsteps⟩ := exists_steps_of_running size before after s w
      exact ⟨_, hsteps, unfinished_finished_lt rfl r⟩
    | _ => cases hjrunning
  · -- no worker is at a job, so one is free for the first that waits
    obtain ⟨before, j, after, rfl, hbefore, hj⟩ := exists_first_of_exists h
    have hnone : ∀ j' ∈ before ++ j :: after, j'.isRunning = false := by
      intro j' hj'
      simpa using fun hr => hrunning ⟨j', hj', hr⟩
    cases j with
    | waiting s =>
      have hfirst : ∀ j' ∈ before, j'.isWaiting = false := by
        intro j' hj'
        cases j' with
        | waiting s' => exact absurd rfl (hbefore _ hj')
        | _ => rfl
      have hfree : (before ++ after).countP Job.isRunning < size := by
        have hzero : (before ++ after).countP Job.isRunning = 0 := by
          rw [List.countP_eq_zero]
          intro j' hj'
          have hmem : j' ∈ before ++ .waiting s :: after := by
            rcases List.mem_append.1 hj' with hj' | hj' <;> simp [hj']
          simp [hnone j' hmem]
        rwa [hzero]
      obtain ⟨v', r, hsteps⟩ := exists_steps_of_running size before after s w
      exact ⟨_, .head (.take hfirst hfree) hsteps, unfinished_finished_lt rfl r⟩
    | running s => cases hnone (.running s) (by simp)
    | finished r => cases hj

/-- **No pool gets stuck**: whatever has been done so far, its jobs can be done. -/
theorem exists_isDone (hsize : 0 < size) (pool : Pool α) :
    ∃ pool' results, Steps size pool pool' ∧ pool'.IsDone results := by
  by_cases h : ∃ j ∈ pool.jobs, j.isFinished = false
  · obtain ⟨next, hsteps, hlt⟩ := exists_steps_of_unfinished hsize h
    obtain ⟨pool', results, hrest, hdone⟩ := exists_isDone hsize next
    exact ⟨pool', results, hsteps.trans hrest, hdone⟩
  · have hfinished : ∀ j ∈ pool.jobs, j.isFinished = true := fun j hj => by simpa using fun hf => h ⟨j, hj, hf⟩
    obtain ⟨results, hdone⟩ := exists_isDone_of_finished hfinished
    exact ⟨pool, results, .refl, hdone⟩
termination_by unfinished pool.jobs

end Pool
end AttestationTrust
