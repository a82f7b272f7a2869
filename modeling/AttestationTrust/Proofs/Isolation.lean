import AttestationTrust.Proofs.Agreement
import AttestationTrust.Proofs.Pool
import AttestationTrust.Proofs.Survivors
/-!
# Locations apart from each other

Of several locations each is to come to what it comes to by itself, whatever becomes of the others: whether they are tried
in turn or shared by workers (`Provider.BuildsBy`).  The work of one location is a script whose steps before the clock is
read cannot tell when they are made; so where a location has one reply for all requests, what it comes to is settled by
the network alone (`Provider.outcome_of_reaches`).  Locations together are then their outcomes in a row
(`Provider.Isolates`), and the log is that of each, in whatever order (`Provider.buildsBy_isolates`).
-/
namespace AttestationTrust

open Metadata (Payload)

/-- Something has failed. -/
def LogRecord.isError (r : LogRecord) : Bool := r.level == .error

namespace Provider

section

variable [Json.Limits]

/-- All that tells providers apart but the root and the time of the last refresh. -/
def row (p : Provider) : String × Timeout × Bool × Option Payload := (p.url, p.timeout, p.revocationCheck, p.payload)

/-- The provider that comes of a location by itself: it can be made, and its refresh succeeds. -/
def own (factory : Factory) (revocationCheck : Bool) (w : World) (url : String) : Option Provider :=
  match factory url with
  | .error _ => none
  | .ok made =>
    match ({ made with revocationCheck := revocationCheck }.refresh w).1 with
    | .ok (p, .ok _) => some p
    | _ => none

/-- What is to be said of a location that no provider comes of by itself. -/
def complaint (factory : Factory) (revocationCheck : Bool) (w : World) (url : String) : Option LogRecord :=
  match factory url with
  | .error f => some ⟨.error, topic, dropped "constructing" url f⟩
  | .ok made =>
    match ({ made with revocationCheck := revocationCheck }.refresh w).1 with
    | .ok (_, .error f) => some ⟨.error, topic, dropped "refreshing" url f⟩
    | _ => none

/-- The work of obtaining a payload, cut into steps.  None of them has to look at the clock. -/
def IsCut (cut : Provider → Script (Option Payload)) : Prop := ∀ p, (cut p).IsTimeless ∧ (cut p).act = p.obtain

theorem exists_isCut : ∃ cut, IsCut cut := by
  choose cut hcut using fun p => Script.exists_of_within (within_obtain p) fun _ _ => rfl
  exact ⟨cut, hcut⟩

/-- What is left of building a provider once it is known what has been obtained. -/
def concluding (p : Provider) (url : String) : Except Failure (Option Payload) → Script (Option Provider)
  | .error f => .log ⟨.error, topic, dropped "refreshing" url f⟩ (.ends (.ok none))
  | .ok none => .clock fun _ => .log ⟨.error, topic, dropped "refreshing" url .noSuchPart⟩ (.ends (.ok none))
  | .ok (some m) => .clock fun time => .log ⟨.info, topic, p.loadedText m⟩
      (.ends (.ok (some { p with payload := some m, lastRefreshed := some time })))

/-- Building the provider of a location, step by step. -/
def building (cut : Provider → Script (Option Payload)) (factory : Factory) (revocationCheck : Bool) (url : String) :
    Script (Option Provider) :=
  match factory url with
  | .error f => .log ⟨.error, topic, dropped "constructing" url f⟩ (.ends (.ok none))
  | .ok made =>
    (cut { made with revocationCheck := revocationCheck }).andThen
      (concluding { made with revocationCheck := revocationCheck } url)

variable {cut : Provider → Script (Option Payload)} {factory : Factory} {revocationCheck : Bool} {url : String}
  {n : Network} {w : World}

theorem building_act (hcut : IsCut cut) :
    (building cut factory revocationCheck url).act = build factory revocationCheck url := by
  funext w
  unfold building build
  cases factory url with
  | error f => rfl
  | ok made =>
    generalize hp : { made with revocationCheck := revocationCheck } = p
    dsimp only
    rw [hp, Script.act_andThen, (hcut p).2]
    cases h : p.obtain w with
    | mk r w' =>
      cases r with
      | error f =>
        rw [Action.bind_of_ok _ (refresh_of_obtain_error h)]
        rfl
      | ok payload =>
        cases payload with
        | none =>
          rw [Action.bind_of_ok _ (refresh_of_obtain_none h)]
          rfl
        | some m =>
          rw [Action.bind_of_ok _ (refresh_of_obtain_some h)]
          rfl

/-- What is obtained step by step is obtained at once, where requests are answered as they were on the way. -/
theorem exists_obtain_of_reaches (hcut : IsCut cut) {p : Provider} {deeds : List Deed}
    {r : Except Failure (Option Payload)} (h : (cut p).Reaches deeds (.ends r))
    (hserves : w.network.Serves (deeds.filterMap Deed.exchange?) n) :
    ∃ w', p.obtain w = (r, w') ∧ w.Does deeds w' := by
  obtain ⟨-, w', hact, hdoes⟩ := (hcut p).1.act_of_reaches h hserves
  rw [(hcut p).2] at hact
  exact ⟨w', hact, hdoes⟩

/-- No errors are logged on the way. -/
theorem filter_isError_of_reaches (hcut : IsCut cut) {p : Provider} {deeds : List Deed}
    {r : Except Failure (Option Payload)} (h : (cut p).Reaches deeds (.ends r))
    (hserves : w.network.Serves (deeds.filterMap Deed.exchange?) n) :
    (deeds.filterMap Deed.record?).filter LogRecord.isError = [] := by
  obtain ⟨w', hobtain, hdoes⟩ := exists_obtain_of_reaches hcut h hserves
  obtain ⟨records, hlog, hquiet⟩ := (within_obtain p).logs w
  rw [hobtain, hdoes.log] at hlog
  obtain rfl := List.append_cancel_left hlog
  refine List.filter_eq_nil_iff.2 fun r hr => ?_
  have hne : r.level ≠ .error := hquiet r hr
  simpa [LogRecord.isError] using hne

/-- What is left once it is known what has been obtained comes to its end without a request. -/
theorem concluding_of_reaches {p : Provider} {deeds : List Deed} {x : Except Failure (Option Payload)}
    {r : Except Failure (Option Provider)} {w' : World} (h : (concluding p url x).Reaches deeds (.ends r))
    (hobtain : p.obtain w = (x, w')) : ∃ kept record, r = .ok kept ∧ deeds = [.logged record] ∧
      ((∃ q m, (p.refresh w).1 = .ok (q, .ok m) ∧ kept.map row = some (row q) ∧ record.isError = false) ∨
        ∃ q f, (p.refresh w).1 = .ok (q, .error f) ∧ kept = none ∧ record = ⟨.error, topic, dropped "refreshing" url f⟩) := by
  cases x with
  | error f =>
    obtain ⟨hr, hdeeds⟩ := Script.reaches_of_log_ends h
    exact ⟨_, _, hr, hdeeds, .inr ⟨p, f, by rw [refresh_of_obtain_error hobtain], rfl, rfl⟩⟩
  | ok payload =>
    cases payload with
    | none =>
      obtain ⟨time, h⟩ := Script.reaches_of_clock h
      obtain ⟨hr, hdeeds⟩ := Script.reaches_of_log_ends h
      exact ⟨_, _, hr, hdeeds, .inr ⟨_, .noSuchPart, by rw [refresh_of_obtain_none hobtain], rfl, rfl⟩⟩
    | some m =>
      obtain ⟨time, h⟩ := Script.reaches_of_clock h
      obtain ⟨hr, hdeeds⟩ := Script.reaches_of_log_ends h
      exact ⟨_, _, hr, hdeeds, .inl ⟨p.holding w' (some m), m,
        by rw [refresh_of_obtain_some hobtain], rfl, rfl⟩⟩

omit [Json.Limits] in
/-- The work on a location has come to its end: none can be made for it, or something has been obtained, and what is left
has come to its end after that. -/
theorem building_of_reaches {deeds : List Deed} {r : Except Failure (Option Provider)}
    (h : (building cut factory revocationCheck url).Reaches deeds (.ends r)) :
    (∃ f, factory url = .error f ∧ r = .ok none ∧
      deeds = [.logged ⟨.error, topic, dropped "constructing" url f⟩]) ∨
    ∃ made obtained before after, factory url = .ok made ∧ deeds = before ++ after ∧
      (cut { made with revocationCheck := revocationCheck }).Reaches before (.ends obtained) ∧
      (concluding { made with revocationCheck := revocationCheck } url obtained).Reaches after (.ends r) := by
  unfold building at h
  cases hmade : factory url with
  | error f =>
    rw [hmade] at h
    obtain ⟨hr, hdeeds⟩ := Script.reaches_of_log_ends h
    exact .inl ⟨f, rfl, hr, hdeeds⟩
  | ok made =>
    rw [hmade] at h
    obtain ⟨obtained, before, after, hdeeds, hbefore, hafter⟩ := Script.reaches_andThen_cases h
    exact .inr ⟨made, obtained, before, after, rfl, hdeeds, hbefore, hafter⟩

/-- **One location.**  Whatever is done in between, its work comes to what it comes to by itself where requests are answered
as they were on the way, and says that it has come to nothing if so. -/
theorem outcome_of_reaches (hcut : IsCut cut) {deeds : List Deed} {r : Except Failure (Option Provider)}
    (h : (building cut factory revocationCheck url).Reaches deeds (.ends r))
    (hserves : w.network.Serves (deeds.filterMap Deed.exchange?) n) :
    ∃ kept, r = .ok kept ∧ kept.map row = (own factory revocationCheck w url).map row ∧
      (deeds.filterMap Deed.record?).filter LogRecord.isError = (complaint factory revocationCheck w url).toList := by
  unfold own complaint
  obtain ⟨f, hmade, rfl, rfl⟩ | ⟨made, obtained, before, after, hmade, rfl, hbefore, hafter⟩ := building_of_reaches h
  · rw [hmade]
    exact ⟨none, rfl, rfl, rfl⟩
  · rw [hmade]
    dsimp only
    -- the clock is read only once it is settled what has been obtained
    rw [List.filterMap_append] at hserves
    obtain ⟨m, hfirst, -⟩ := hserves.exists_of_append
    obtain ⟨w', hobtain, -⟩ := exists_obtain_of_reaches hcut hbefore hfirst
    obtain ⟨kept, record, hr, rfl, ⟨q, m, hrefresh, hkept, hrecord⟩ | ⟨q, f, hrefresh, rfl, rfl⟩⟩ :=
      concluding_of_reaches hafter hobtain
    all_goals
      rw [List.filterMap_append, List.filter_append, filter_isError_of_reaches hcut hbefore hfirst, hrefresh]
    · exact ⟨kept, hr, hkept, by simp [Deed.record?, hrecord]⟩
    · exact ⟨none, hr, rfl, rfl⟩

/-! ## Locations together -/

/-- What comes of locations together is of each what comes of it by itself, and of each that nothing comes of there is one
error in the log. -/
structure Isolates (factory : Factory) (revocationCheck : Bool) (w : World) (urls : List String) (ps : List Provider)
    (records : List LogRecord) : Prop where
  rows : ps.map row = urls.filterMap fun url => (own factory revocationCheck w url).map row
  errors : (records.filter LogRecord.isError).Perm (urls.filterMap (complaint factory revocationCheck w))

variable {urls urls' : List String} {ps ps' : List Provider} {records records' : List LogRecord}

theorem isolates_nil (h : records.filter LogRecord.isError = []) :
    Isolates factory revocationCheck w [] [] records := ⟨rfl, .of_eq h⟩

theorem isolates_single {kept : Option Provider} (hkept : kept.map row = (own factory revocationCheck w url).map row)
    (hrecords : records.filter LogRecord.isError = (complaint factory revocationCheck w url).toList) :
    Isolates factory revocationCheck w [url] kept.toList records where
  rows := by
    rw [List.filterMap_cons, ← hkept]
    cases kept <;> rfl
  errors := by
    rw [List.filterMap_cons, hrecords]
    cases complaint factory revocationCheck w url <;> rfl

theorem Isolates.append (h : Isolates factory revocationCheck w urls ps records)
    (h' : Isolates factory revocationCheck w urls' ps' records') :
    Isolates factory revocationCheck w (urls ++ urls') (ps ++ ps') (records ++ records') where
  rows := by rw [List.map_append, List.filterMap_append, h.rows, h'.rows]
  errors := by
    rw [List.filter_append, List.filterMap_append]
    exact h.errors.append h'.errors

theorem Isolates.perm (h : Isolates factory revocationCheck w urls ps records) (hperm : records'.Perm records) :
    Isolates factory revocationCheck w urls ps records' :=
  ⟨h.rows, (hperm.filter _).trans h.errors⟩

/-- The answers of jobs in a row, or the first failure; those that came to nothing are left out. -/
def collect : List (Except Failure (Option Provider)) → Except Failure (List Provider)
  | [] => .ok []
  | r :: rs => do
    let here ← r
    let rest ← collect rs
    .ok (here.toList ++ rest)

/-- The locations handed in to a pool as jobs.  There may be a warning before them, as there is where there are none. -/
def handedIn (cut : Provider → Script (Option Payload)) (factory : Factory) (revocationCheck : Bool) (urls : List String)
    (w : World) : Pool (Option Provider) :=
  .start (buildAll factory revocationCheck [] w).2 (urls.map (building cut factory revocationCheck))

/-- How building providers by a number of workers may end: locations come one after another, or they are jobs of a pool
whose steps come in any order, however the work is cut into steps. -/
inductive BuildsBy (factory : Factory) (revocationCheck : Bool) (workers : Int) (urls : List String) (w : World) :
    Except Failure (List Provider) → World → Prop
  | serial {r : Except Failure (List Provider)} {w' : World} (hsize : poolSize workers urls = none)
      (h : buildAll factory revocationCheck urls w = (r, w')) : BuildsBy factory revocationCheck workers urls w r w'
  | pooled {size : Int} {cut : Provider → Script (Option Payload)} {pool : Pool (Option Provider)}
      {results : List (Except Failure (Option Provider))} (hsize : poolSize workers urls = some size) (hcut : IsCut cut)
      (hsteps : Pool.Steps size.toNat (handedIn cut factory revocationCheck urls w) pool)
      (hdone : pool.IsDone results) : BuildsBy factory revocationCheck workers urls w (collect results) pool.world

theorem buildAll_eq (factory : Factory) (revocationCheck : Bool) (urls : List String) (w : World) :
    buildAll factory revocationCheck urls w =
      buildEach factory revocationCheck urls (buildAll factory revocationCheck [] w).2 := by
  cases revocationCheck <;> rfl

/-- What is said before the work on locations is no more than a warning. -/
theorem exists_does_warning (factory : Factory) (revocationCheck : Bool) (w : World) : ∃ deeds,
    w.Does deeds (buildAll factory revocationCheck [] w).2 ∧ deeds.filterMap Deed.exchange? = [] ∧
    (deeds.filterMap Deed.record?).filter LogRecord.isError = [] := by
  cases revocationCheck with
  | true => exact ⟨[], .of_outside rfl rfl, rfl, rfl⟩
  | false => exact ⟨[.logged _], .logged w _, rfl, rfl⟩

/-- Locations one after another, each at its end. -/
theorem exists_endings_of_buildEach (factory : Factory) (revocationCheck : Bool) (hcut : IsCut cut) :
    ∀ (urls : List String) (w : World),
    ∃ endings : List (List Deed × Except Failure (Option Provider)),
      List.Forall₂ (fun url x => (building cut factory revocationCheck url).Reaches x.1 (.ends x.2)) urls endings ∧
      (buildEach factory revocationCheck urls w).1 = collect (endings.map Prod.snd) ∧
      w.Does (endings.map Prod.fst).flatten (buildEach factory revocationCheck urls w).2
  | [], w => ⟨[], .nil, rfl, .of_outside rfl rfl⟩
  | url :: urls, w => by
    obtain ⟨here, hreaches, hhere⟩ := Script.reaches_act (building cut factory revocationCheck url) w
    rw [building_act hcut] at hreaches hhere
    obtain ⟨kept, hkept⟩ := exists_build_fst factory revocationCheck url w
    obtain ⟨ps, hps⟩ := exists_buildEach_fst factory revocationCheck urls (build factory revocationCheck url w).2
    obtain ⟨endings, hends, hcollect, hdoes⟩ :=
      exists_endings_of_buildEach factory revocationCheck hcut urls (build factory revocationCheck url w).2
    rw [hkept] at hreaches
    refine ⟨(here, .ok kept) :: endings, .cons hreaches hends, ?_, ?_⟩
    · rw [buildEach_cons hkept (Prod.ext hps rfl), List.map_cons, collect, ← hcollect, hps]
      rfl
    · rw [buildEach_cons hkept (Prod.ext hps rfl)]
      exact hhere.append hdoes

/-- However the work is shared, each location's comes to its end, and what is done is woven of what is done for each. -/
theorem BuildsBy.exists_endings {workers : Int} {r : Except Failure (List Provider)} {w' : World}
    (h : BuildsBy factory revocationCheck workers urls w r w') :
    ∃ (cut : Provider → Script (Option Payload)) (endings : List (List Deed × Except Failure (Option Provider)))
      (deeds : List Deed), IsCut cut ∧
      List.Forall₂ (fun url x => (building cut factory revocationCheck url).Reaches x.1 (.ends x.2)) urls endings ∧
      r = collect (endings.map Prod.snd) ∧
      (buildAll factory revocationCheck [] w).2.Does deeds w' ∧ Woven deeds (endings.map Prod.fst) := by
  cases h with
  | serial hsize h =>
    obtain ⟨cut, hcut⟩ := exists_isCut
    rw [buildAll_eq] at h
    obtain ⟨endings, hends, hcollect, hdoes⟩ :=
      exists_endings_of_buildEach factory revocationCheck hcut urls (buildAll factory revocationCheck [] w).2
    rw [h] at hcollect hdoes
    exact ⟨cut, endings, _, hcut, hends, hcollect, hdoes, .flatten _⟩
  | @pooled size cut pool results hsize hcut hsteps hdone =>
    obtain ⟨endings, deeds, hends, rfl, hdoes, hwoven⟩ := ((Pool.follows_start _ _).steps hsteps).of_isDone hdone
    exact ⟨cut, endings, deeds, hcut, List.forall₂_map_left_iff.1 hends, rfl, hdoes, hwoven⟩

/-- Locations at their ends come to what they come to by themselves where requests are answered as they were on the
way. -/
theorem exists_collect (hcut : IsCut cut) {endings : List (List Deed × Except Failure (Option Provider))}
    (h : List.Forall₂ (fun url x => (building cut factory revocationCheck url).Reaches x.1 (.ends x.2)) urls endings)
    (hserves : ∀ x ∈ endings, w.network.Serves (x.1.filterMap Deed.exchange?) n) :
    ∃ ps, collect (endings.map Prod.snd) = .ok ps ∧
      Isolates factory revocationCheck w urls ps ((endings.map Prod.fst).flatten.filterMap Deed.record?) := by
  induction h with
  | nil => exact ⟨[], rfl, isolates_nil rfl⟩
  | cons hreaches _ ih =>
    obtain ⟨hhere, hrest⟩ := List.forall_mem_cons.1 hserves
    obtain ⟨ps, hcollect, hisolates⟩ := ih hrest
    obtain ⟨kept, hkept, hrow, htrail⟩ := outcome_of_reaches hcut hreaches hhere
    refine ⟨kept.toList ++ ps, ?_, ?_⟩
    · rw [List.map_cons, hkept, collect, hcollect]
      rfl
    · rw [List.map_cons, List.flatten_cons, List.filterMap_append]
      exact (isolates_single hrow htrail).append hisolates

/-- However the work is shared, what comes of the locations is what comes of each. -/
theorem BuildsBy.isolates {workers : Int} {r : Except Failure (List Provider)} {v v' : World} (hn : n.IsSteady)
    (hv : v.network = n) (h : BuildsBy factory revocationCheck workers urls v r v') (hw : w.network = n) :
    ∃ ps records, r = .ok ps ∧ v'.log = v.log ++ records ∧ v'.files = v.files ∧ v'.network = n ∧
      Isolates factory revocationCheck w urls ps records := by
  obtain ⟨cut, endings, deeds, hcut, hends, rfl, hdoes, hwoven⟩ := h.exists_endings
  obtain ⟨warnings, hwarning, hunasked, hquiet⟩ := exists_does_warning factory revocationCheck v
  have hserves := (hwarning.append hdoes).network
  rw [List.filterMap_append, hunasked, List.nil_append, hv, Network.serves_iff_of_isSteady hn] at hserves
  obtain ⟨hnetwork, hanswers⟩ := hserves
  have heach : ∀ x ∈ endings, w.network.Serves (x.1.filterMap Deed.exchange?) n := by
    intro x hx
    rw [hw, Network.serves_iff_of_isSteady hn]
    exact ⟨rfl, fun e he => hanswers e (((hwoven.sublist x.1 (List.mem_map_of_mem hx)).filterMap _).subset he)⟩
  obtain ⟨ps, hcollect, hisolates⟩ := exists_collect hcut hends heach
  refine ⟨ps, _, hcollect, (hwarning.append hdoes).log, (hwarning.append hdoes).files, hnetwork, ?_⟩
  rw [List.filterMap_append]
  exact (isolates_nil hquiet).append (hisolates.perm (hwoven.perm.filterMap _))

omit [Json.Limits] in
/-- A pool of no workers is not made. -/
theorem poolSize_pos {workers size : Int} (h : poolSize workers urls = some size) : 0 < size.toNat := by
  unfold poolSize at h
  split at h <;> cases h
  omega

theorem exists_buildsBy (factory : Factory) (revocationCheck : Bool) (workers : Int) (urls : List String) (w : World) :
    ∃ r w', BuildsBy factory revocationCheck workers urls w r w' := by
  cases hsize : poolSize workers urls with
  | none => exact ⟨_, _, .serial hsize rfl⟩
  | some size =>
    obtain ⟨cut, hcut⟩ := exists_isCut
    obtain ⟨pool, results, hsteps, hdone⟩ := Pool.exists_isDone (poolSize_pos hsize)
      (handedIn cut factory revocationCheck urls w)
    exact ⟨_, _, .pooled hsize hcut hsteps hdone⟩

/-! ## What a location comes to by itself -/

/-- A provider comes of a location by itself, or there is something to be said of it. -/
theorem own_cases (factory : Factory) (revocationCheck : Bool) (w : World) (url : String) :
    (∃ made m time, factory url = .ok made ∧ own factory revocationCheck w url =
        some { made with revocationCheck := revocationCheck, payload := some m, lastRefreshed := some time } ∧
      complaint factory revocationCheck w url = none) ∨
    own factory revocationCheck w url = none ∧
      ∃ stage f, complaint factory revocationCheck w url = some ⟨.error, topic, dropped stage url f⟩ := by
  unfold own complaint
  cases hmade : factory url with
  | error f => exact .inr ⟨rfl, _, f, rfl⟩
  | ok made =>
    dsimp only
    cases hobtain : { made with revocationCheck := revocationCheck }.obtain w with
    | mk r w' =>
      cases r with
      | error f =>
        rw [refresh_of_obtain_error hobtain]
        exact .inr ⟨rfl, _, f, rfl⟩
      | ok payload =>
        cases payload with
        | none =>
          rw [refresh_of_obtain_none hobtain]
          exact .inr ⟨rfl, _, .noSuchPart, rfl⟩
        | some m =>
          rw [refresh_of_obtain_some hobtain]
          exact .inl ⟨made, m, w'.clock, rfl, rfl, rfl⟩

/-- What a location comes to by itself has been made for it, and has been loaded. -/
theorem of_own_row {p : Provider} (h : (own factory revocationCheck w url).map row = some (row p)) :
    ∃ made, factory url = .ok made ∧ p.url = made.url ∧ p.payload ≠ none ∧ p.revocationCheck = revocationCheck := by
  rcases own_cases factory revocationCheck w url with ⟨made, m, time, hmade, hown, -⟩ | ⟨hown, -⟩
  · rw [hown, Option.map_some, Option.some_inj, row, row, Prod.mk.injEq, Prod.mk.injEq, Prod.mk.injEq] at h
    obtain ⟨hurl, -, hcheck, hpayload⟩ := h
    exact ⟨made, hmade, hurl.symm, by simp [← hpayload], hcheck.symm⟩
  · rw [hown] at h
    cases h

/-- The providers that are left are those of the locations that come to one by themselves, in the order of these. -/
theorem Isolates.urls_eq (h : Isolates factory revocationCheck w urls ps records)
    (hfactory : ∀ url made, factory url = .ok made → made.url = url) :
    ps.map Provider.url = urls.filter fun url => (own factory revocationCheck w url).isSome := by
  have hurls : ps.map Provider.url = (ps.map row).map Prod.fst := by
    rw [List.map_map]
    rfl
  rw [hurls, h.rows, List.map_filterMap, ← List.filterMap_eq_filter]
  refine List.filterMap_congr fun url _ => ?_
  rcases own_cases factory revocationCheck w url with ⟨made, m, time, hmade, hown, -⟩ | ⟨hown, -⟩
  · simp [hown, row, Option.guard, hfactory url made hmade]
  · simp [hown, Option.guard]

theorem Isolates.loaded (h : Isolates factory revocationCheck w urls ps records) {p : Provider} (hp : p ∈ ps) :
    p.payload ≠ none ∧ p.revocationCheck = revocationCheck := by
  have hrow : row p ∈ ps.map row := List.mem_map_of_mem hp
  rw [h.rows] at hrow
  obtain ⟨url, -, hown⟩ := List.mem_filterMap.1 hrow
  obtain ⟨-, -, -, hloaded⟩ := of_own_row hown
  exact hloaded

/-- Of each location there is a provider or an error in the log. -/
theorem Isolates.length_add_length (h : Isolates factory revocationCheck w urls ps records) :
    ps.length + (records.filter LogRecord.isError).length = urls.length := by
  rw [← List.length_map row, h.rows, h.errors.length_eq]
  clear h
  induction urls with
  | nil => rfl
  | cons url urls ih =>
    rw [List.filterMap_cons, List.filterMap_cons]
    rcases own_cases factory revocationCheck w url with ⟨made, m, time, -, hown, hnone⟩ | ⟨hown, stage, f, hsome⟩
    · rw [hown, hnone]
      simp only [Option.map_some, List.length_cons]
      omega
    · rw [hown, hsome]
      simp only [Option.map_none, List.length_cons]
      omega

/-- **Locations do not get in each other's way.**  Where a location has one reply for all requests, building the providers
of several never fails and never gets stuck, whether they come one after another or are shared by workers that take their
steps in any order.  What is left is, for each location that comes to a provider by itself, that provider, in the order of
the locations and as often as they are listed: loaded, and with revocation checked as it was asked for.  Each other
location is named by one error in the log.  So the providers of two lists joined are those of the one and those of the
other. -/
theorem buildsBy_isolates {factory : Factory} (hfactory : ∀ url made, factory url = .ok made → made.url = url)
    (revocationCheck : Bool) {n : Network} (hn : n.IsSteady) :
    (∀ workers urls w, (∃ r w', BuildsBy factory revocationCheck workers urls w r w') ∧
      ∀ size cut pool, poolSize workers urls = some size →
        Pool.Steps size.toNat (handedIn cut factory revocationCheck urls w) pool →
        ∃ pool' results, Pool.Steps size.toNat pool pool' ∧ pool'.IsDone results) ∧
    (∀ workers urls w r w', w.network = n → BuildsBy factory revocationCheck workers urls w r w' →
      ∃ ps records, r = .ok ps ∧ w'.log = w.log ++ records ∧
        ps.map row = (urls.filterMap (own factory revocationCheck w)).map row ∧
        ps.map Provider.url = urls.filter (fun url => (own factory revocationCheck w url).isSome) ∧
        (∀ p ∈ ps, p.payload ≠ none ∧ p.revocationCheck = revocationCheck) ∧
        (records.filter LogRecord.isError).Perm (urls.filterMap (complaint factory revocationCheck w)) ∧
        ps.length + (records.filter LogRecord.isError).length = urls.length) ∧
    (∀ w url, own factory revocationCheck w url = none → ∃ stage f,
      complaint factory revocationCheck w url = some ⟨.error, topic, dropped stage url f⟩) ∧
    ∀ urls urls' workers workers' workers'' w w' w'' ps ps' ps'' v v' v'',
      w.network = n → w'.network = n → w''.network = n →
      BuildsBy factory revocationCheck workers urls w (.ok ps) v →
      BuildsBy factory revocationCheck workers' urls' w' (.ok ps') v' →
      BuildsBy factory revocationCheck workers'' (urls ++ urls') w'' (.ok ps'') v'' →
      ps''.map row = ps.map row ++ ps'.map row := by
  refine ⟨fun workers urls w => ⟨exists_buildsBy factory revocationCheck workers urls w, ?_⟩, ?_, ?_, ?_⟩
  · intro size cut pool hsize _
    exact Pool.exists_isDone (poolSize_pos hsize) pool
  · intro workers urls w r w' hw h
    obtain ⟨ps, records, hr, hlog, -, -, hisolates⟩ := h.isolates hn hw hw
    refine ⟨ps, records, hr, hlog, ?_, hisolates.urls_eq hfactory, fun p hp => hisolates.loaded hp, hisolates.errors,
      hisolates.length_add_length⟩
    rw [hisolates.rows, List.map_filterMap]
  · intro w url hnone
    rcases own_cases factory revocationCheck w url with ⟨made, m, time, -, hown, -⟩ | ⟨-, hcomplaint⟩
    · cases hown.symm.trans hnone
    · exact hcomplaint
  · intro urls urls' workers workers' workers'' w w' w'' ps ps' ps'' v v' v'' hw hw' hw'' h h' h''
    -- the three worlds differ, but what a location comes to by itself can be read in any of them
    obtain ⟨_, _, hps, -, -, -, hisolates⟩ := h.isolates hn hw hw
    obtain ⟨_, _, hps', -, -, -, hisolates'⟩ := h'.isolates hn hw' hw
    obtain ⟨_, _, hps'', -, -, -, hisolates''⟩ := h''.isolates hn hw'' hw
    cases hps
    cases hps'
    cases hps''
    rw [hisolates.rows, hisolates'.rows, hisolates''.rows, List.filterMap_append]

theorem own_of_obtain {made : Provider} {m : Payload} {w' : World} (hmade : factory url = .ok made)
    (h : { made with revocationCheck := revocationCheck }.obtain w = (.ok (some m), w')) :
    own factory revocationCheck w url =
      some { made with revocationCheck := revocationCheck, payload := some m, lastRefreshed := some w'.clock } := by
  unfold own
  rw [hmade]
  dsimp only
  rw [refresh_of_obtain_some h]
  rfl

end

/-- Providers of any location but the empty one. -/
def nonemptyFactory (root : X509.Certificate) (url : String) : Except Failure Provider :=
  if url = "" then .error (.value .unworded) else .ok ⟨url, root, .integer 1, true, none, none⟩

/-- A network with one BLOB. -/
def blobNetwork : Network := ⟨[("https://a", [.body Blob.blankedBlob])]⟩

theorem blobNetwork_isSteady : blobNetwork.IsSteady := by
  intro url
  unfold Network.next
  split
  · next h =>
    unfold blobNetwork at h
    rw [List.lookup_cons] at h
    split at h <;> cases h
  · rfl
  · rfl

variable [Json.Limits] in
theorem own_blobNetwork_isSome {root : X509.Certificate} {m : Payload}
    (hm : Blob.accept root Blob.blankedBlob = some (some m)) (hw : w.network = blobNetwork) :
    (own (nonemptyFactory root) false w "https://a").isSome = true := by
  have hreply : (w.network.ask (.integer 1) "https://a").1 = .ok Blob.blankedBlob := by
    rw [hw]
    rfl
  have hobtain := obtain_of_unchecked (p := ⟨"https://a", root, .integer 1, false, none, none⟩) hreply hm rfl
  rw [own_of_obtain rfl hobtain]
  rfl

open scoped Json.Limits in
theorem buildsBy_isolates_by_two_workers : let factory := nonemptyFactory Validator.shortAnchor.certificate
    (∀ url made, factory url = .ok made → made.url = url) ∧ blobNetwork.IsSteady ∧
    ∀ w, w.network = blobNetwork →
      (∃ r w', BuildsBy factory false 2 ["https://a", "", "https://a"] w r w') ∧
      ∀ r w', BuildsBy factory false 2 ["https://a", "", "https://a"] w r w' →
        ∃ ps records, r = .ok ps ∧ w'.log = w.log ++ records ∧ ps.map Provider.url = ["https://a", "https://a"] ∧
          (records.filter LogRecord.isError).length = 1 := by
  intro factory
  have hfactory : ∀ url made, factory url = .ok made → made.url = url := by
    intro url made h
    unfold factory nonemptyFactory at h
    split at h <;> cases h
    rfl
  refine ⟨hfactory, blobNetwork_isSteady, fun w hw => ?_⟩
  obtain ⟨hends, hisolates, -⟩ := buildsBy_isolates hfactory false blobNetwork_isSteady
  refine ⟨(hends 2 _ w).1, fun r w' h => ?_⟩
  obtain ⟨ps, records, hr, hlog, -, hurls, -, -, hlength⟩ := hisolates _ _ w r w' hw h
  obtain ⟨m, hm⟩ := Blob.exists_accept_blankedBlob
  have hown : (own factory false w "https://a").isSome = true := own_blobNetwork_isSome hm hw
  have hempty : own factory false w "" = none := rfl
  have hps : ps.map Provider.url = ["https://a", "https://a"] := by
    simpa [hown, hempty] using hurls
  refine ⟨ps, records, hr, hlog, hps, ?_⟩
  have htwo : ps.length = 2 := by simpa using congrArg List.length hps
  simp only [htwo, List.length_cons, List.length_nil] at hlength
  omega

end Provider
end AttestationTrust
