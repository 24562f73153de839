import SessionWatch.Proofs.Accesses
import SessionWatch.Proofs.Deeds
import SessionWatch.Proofs.Holdings
import SessionWatch.Proofs.Provenance
import SessionWatch.Proofs.Relay

/-!
Backends as replicas of each other. Every request is made of all of them in turn, so what a backend
holds is made of the same requests as what the others hold, less those at which it failed.
-/

namespace SessionWatch

open Session Storage

/-! ### Requests to one backend -/

/-- The request that a deed makes of the backend at a position, and whether it fails. -/
def Deed.callAt (i : ℕ) : Deed → Option (Request × Bool)
  | ⟨.exchange k r, x⟩ => if k = i then some (r, isFailure x) else none
  | _ => none

def callsAt (i : ℕ) (ds : List Deed) : List (Request × Bool) := ds.filterMap (·.callAt i)

def requestsTo (i : ℕ) (ds : List Deed) : List Request := (callsAt i ds).map (·.1)

def failuresAt (i : ℕ) (ds : List Deed) : List Bool := (callsAt i ds).map (·.2)

theorem callsAt_append (i : ℕ) (ds es : List Deed) :
    callsAt i (ds ++ es) = callsAt i ds ++ callsAt i es := List.filterMap_append

theorem requestsTo_append (i : ℕ) (ds es : List Deed) :
    requestsTo i (ds ++ es) = requestsTo i ds ++ requestsTo i es := by
  rw [requestsTo, callsAt_append, List.map_append, requestsTo, requestsTo]

/-- Calls carried out in order; those that fail change nothing. -/
def Storage.Holding.takeAll (h : Holding) (calls : List (Request × Bool)) : Holding :=
  calls.foldl (fun h x => if x.2 then h else h.take x.1) h

theorem Storage.Holding.takeAll_append (h : Holding) (xs ys : List (Request × Bool)) :
    h.takeAll (xs ++ ys) = (h.takeAll xs).takeAll ys := List.foldl_append

/-- What the backend at a position holds, if it is a store in memory. -/
def World.holdingAt (w : World) (i : ℕ) : Option Holding :=
  (w.backends[i]?.bind (·.memory?)).map (·.holding)

namespace Plan

variable {α β : Type}

/-- No more than one record is written at a time. -/
def IsSingle : Plan α → Prop
  | .done _ => True
  | .step s next => (∀ i r, s = .exchange i r → r.IsSingle) ∧ ∀ x, (next x).IsSingle

theorem IsSingle.bind {p : Plan α} {f : α → Plan β} (hp : p.IsSingle) (hf : ∀ a, (f a).IsSingle) :
    (p.bind f).IsSingle := by
  induction p with
  | done a => exact hf a
  | step s next ih => exact ⟨hp.1, fun x => ih x (hp.2 x)⟩

end Plan

theorem Storage.Backend.holding_asked (b : Backend) (i : ℕ) (c : Conditions) {r : Request}
    (hr : r.IsSingle) : (b.asked i c r).1.memory?.map (·.holding) =
      match (b.asked i c r).2 with
      | some (.ok _) => (b.memory?.map (·.holding)).map (·.take r)
      | _ => b.memory?.map (·.holding) := by
  cases b with
  | memory m =>
    let start : Memory := { m with failing := c.refused i }
    have hm := start.holding_exchange c.clock hr
    show some (start.exchange c.clock r).1.holding =
      match (start.exchange c.clock r).2 with
      | some (.ok _) => some (m.holding.take r)
      | _ => some m.holding
    rw [hm]
    rcases (start.exchange c.clock r).2 with _ | _ | a <;> rfl
  | redis s =>
    show none = match (Backend.asked (.redis s) i c r).2 with
      | some (.ok _) => none
      | _ => none
    split <;> rfl

def Step.deed? (s : Step) (x : Option s.Answer) : List Deed := (x.map (Deed.mk s)).toList

theorem World.holdingAt_under (w : World) (c : Conditions) {s : Step}
    (hs : ∀ i r, s = .exchange i r → r.IsSingle) (i : ℕ) :
    (w.under c s).1.holdingAt i =
      (w.holdingAt i).map (·.takeAll (callsAt i (s.deed? (w.under c s).2))) := by
  have hidle : s.onBackend c i = id → (∀ x, Deed.callAt i ⟨s, x⟩ = none) →
      (w.under c s).1.holdingAt i =
        (w.holdingAt i).map (·.takeAll (callsAt i (s.deed? (w.under c s).2))) := by
    intro hbackend hcalls
    have hnone : callsAt i (s.deed? (w.under c s).2) = [] := by
      cases (w.under c s).2 with
      | none => rfl
      | some x => simp [Step.deed?, callsAt, hcalls]
    rw [holdingAt, backends_under, hbackend, Option.map_id, hnone]
    exact Option.map_id'.symm
  cases s with
  | exchange k r =>
    by_cases hk : k = i
    · subst hk
      rw [holdingAt, backends_under, under_exchange, holdingAt]
      cases hb : w.backends[k]? with
      | none => rfl
      | some b =>
        have hasked := b.holding_asked k c (hs k r rfl)
        simp only [Option.map_some, Option.bind_some, Step.onBackend, if_pos]
        rw [hasked]
        rcases (b.asked k c r).2 with _ | _ | a
        · exact Option.map_id'.symm
        · simp [Step.deed?, callsAt, Deed.callAt, Holding.takeAll, Function.comp_def]
        · simp [Step.deed?, callsAt, Deed.callAt, Holding.takeAll]
    · refine hidle (funext fun b => if_neg hk) fun x => ?_
      simp [Deed.callAt, hk]
  | _ => exact hidle rfl fun _ => rfl

/-- What a backend holds after a plan is what it held before, with the calls carried out that did not
fail at it. -/
theorem Plan.holdingAt_play {α : Type} {p : Plan α} (hp : p.IsSingle) (c : Scene) (i : ℕ) :
    (p.play c).1.world.holdingAt i =
      (c.world.holdingAt i).map (·.takeAll (callsAt i (p.deeds c))) := by
  induction p generalizing c with
  | done a => exact Option.map_id'.symm
  | step s next ih =>
    obtain ⟨w, ω⟩ := c
    have hstep := w.holdingAt_under (ω 0) hp.1 i
    rw [play_step, deeds_step, Scene.perform_eq]
    rcases hs : w.under (ω 0) s with ⟨w', _ | x⟩
    · rw [hs] at hstep
      exact hstep
    · rw [hs] at hstep
      have hsplit : ∀ ds, callsAt i (⟨s, x⟩ :: ds) = callsAt i (s.deed? (some x)) ++ callsAt i ds :=
        callsAt_append i [⟨s, x⟩]
      simp only [ih x (hp.2 x), hstep, Option.map_map, hsplit, Holding.takeAll_append]
      rfl

/-! ### Requests of all backends -/

namespace Storage

theorem requestsTo_askEach (r : Request) (t : Tally r.Answer) (start n : ℕ) (c : Scene) :
    ∃ k ≤ n, (∀ i, requestsTo i ((askEach r t (List.range' start n)).deeds c) =
        if start ≤ i ∧ i < start + k then [r] else []) ∧
      (((askEach r t (List.range' start n)).play c).2.isSome → k = n) := by
  induction n generalizing start t c with
  | zero => exact ⟨0, le_rfl, fun i => by rw [if_neg (by omega)]; rfl, fun _ => rfl⟩
  | succ n ih =>
    rw [List.range'_succ, askEach_cons, Plan.deeds_step, Plan.play_step]
    rcases c.perform (.exchange start r) with ⟨c', _ | x⟩
    · exact ⟨0, Nat.zero_le _, fun i => by rw [if_neg (by omega)]; rfl, nofun⟩
    · obtain ⟨k, hk, hasked, hends⟩ := ih (t.record x) (start + 1) c'
      refine ⟨k + 1, Nat.succ_le_succ hk, fun i => ?_, fun h => congrArg Nat.succ (hends h)⟩
      have hfirst : requestsTo i [⟨.exchange start r, x⟩] = if start = i then [r] else [] := by
        by_cases hi : start = i <;> simp [requestsTo, callsAt, Deed.callAt, hi]
      have hsplit := requestsTo_append i [⟨.exchange start r, x⟩]
        ((askEach r (t.record x) (List.range' (start + 1) n)).deeds c')
      rw [hfirst, hasked] at hsplit
      refine hsplit.trans ?_
      by_cases hi : start = i
      · rw [if_pos hi, if_neg (by omega), if_pos (by omega)]
        rfl
      · rw [if_neg hi, List.nil_append]
        exact if_congr (by omega) rfl rfl

theorem requestsTo_fanOut (n : ℕ) (r : Request) (c : Scene) :
    ∃ k ≤ n, (∀ i, requestsTo i ((fanOut n r).deeds c) = if i < k then [r] else []) ∧
      (((fanOut n r).play c).2.isSome → k = n) := by
  obtain ⟨k, hk, hasked, hends⟩ := requestsTo_askEach r { total := n } 0 n c
  rw [← List.range_eq_range'] at hasked hends
  refine ⟨k, hk, fun i => ?_, fun h => hends ?_⟩
  · rw [fanOut_eq, Plan.deeds_bind_done, hasked]
    exact if_congr (by omega) rfl rfl
  · rw [fanOut_eq, Plan.play_bind_done] at h
    simpa using h

theorem askEach_isSingle {r : Request} (hr : r.IsSingle) (t : Tally r.Answer) (is : List ℕ) :
    (askEach r t is).IsSingle := by
  induction is generalizing t with
  | nil => trivial
  | cons i is ih => exact ⟨by rintro _ _ ⟨⟩; exact hr, fun a => ih (t.record a)⟩

theorem fanOut_isSingle {r : Request} (hr : r.IsSingle) (n : ℕ) : (fanOut n r).IsSingle :=
  (askEach_isSingle hr _ _).bind fun _ => trivial

end Storage

def Step.IsOwn : Step → Prop
  | .exchange .. => False
  | _ => True

namespace Plan

variable {α β : Type} {n : ℕ}

/-- A plan that asks backends in fan-outs to all of them alone, for one record at a time. -/
inductive FansOut (n : ℕ) : Plan α → Prop
  | done (a : α) : FansOut n (.done a)
  | own {s : Step} {next : s.Answer → Plan α} : s.IsOwn → (∀ x, FansOut n (next x)) →
      FansOut n (.step s next)
  | all {r : Request} {f : Result r.Answer → Plan α} : r.IsSingle → (∀ x, FansOut n (f x)) →
      FansOut n ((fanOut n r).bind f)

namespace FansOut

theorem bind {p : Plan α} {f : α → Plan β} (hp : p.FansOut n) (hf : ∀ a, (f a).FansOut n) :
    (p.bind f).FansOut n := by
  induction hp with
  | done a => exact hf a
  | own hs _ ih => exact .own hs ih
  | all hr _ ih =>
    rw [bind_assoc]
    exact .all hr ih

theorem afterStamps {p : Plan α} (hp : p.FansOut n) (k : ℕ) : (p.afterStamps k).FansOut n := by
  induction k with
  | zero => exact hp
  | succ k ih => exact .own trivial fun _ => ih

theorem isSingle {p : Plan α} (hp : p.FansOut n) : p.IsSingle := by
  induction hp with
  | done a => trivial
  | @own s next hs _ ih =>
    refine ⟨fun i r h => ?_, ih⟩
    subst h
    exact hs.elim
  | all hr _ ih => exact (fanOut_isSingle hr n).bind ih

/-- All backends are asked the same in the same order, and no backend is asked more than the first,
which is the last to be left out when the process dies. -/
theorem asks_alike {p : Plan α} (hp : p.FansOut n) (c : Scene) {i : ℕ} (hi : i < n) :
    requestsTo i (p.deeds c) <+: requestsTo 0 (p.deeds c) ∧
      ((p.play c).2.isSome → requestsTo i (p.deeds c) = requestsTo 0 (p.deeds c)) := by
  induction hp generalizing c with
  | done a => exact ⟨List.prefix_rfl, fun _ => rfl⟩
  | @own s next hs _ ih =>
    rw [deeds_step, play_step]
    rcases c.perform s with ⟨c', _ | x⟩
    · exact ⟨List.prefix_rfl, nofun⟩
    · have hskip : ∀ j ds, requestsTo j (⟨s, x⟩ :: ds) = requestsTo j ds := by
        intro j ds
        cases s with
        | exchange k r => exact hs.elim
        | _ => rfl
      simp only [hskip]
      exact ih x c'
  | @all r f hr _ ih =>
    obtain ⟨k, hk, hasked, hends⟩ := requestsTo_fanOut n r c
    rcases hplay : (fanOut n r).play c with ⟨c', _ | x⟩
    · rw [deeds_bind_of_none (by rw [hplay]), play_bind, hplay, hasked, hasked]
      refine ⟨?_, nofun⟩
      by_cases hik : i < k
      · rw [if_pos hik, if_pos (by omega)]
      · rw [if_neg hik]
        exact List.nil_prefix
    · obtain rfl : k = n := hends (by rw [hplay]; rfl)
      rw [deeds_bind_of_some hplay, play_bind_of_some hplay, requestsTo_append, requestsTo_append,
        hasked, hasked, if_pos hi, if_pos (by omega)]
      obtain ⟨hfront, heq⟩ := ih x c'
      exact ⟨(List.prefix_append_right_inj _).2 hfront, fun h => by rw [heq h]⟩

end FansOut

end Plan

namespace Session

theorem push_fansOut (n : ℕ) (stream : String) (kind : TaskKind) (info : String) :
    (push n stream kind info).FansOut n := by
  refine .all trivial fun a => ?_
  cases a with
  | error r => exact .done _
  | ok t =>
    refine .all trivial fun b => ?_
    cases b with
    | error r => exact .done _
    | ok id => exact .done _

theorem setDeletable_fansOut (n : ℕ) (streams : Streams) (d : Deletable) :
    (setDeletable n streams d).FansOut n := by
  refine (push_fansOut n ..).bind fun a => ?_
  cases a with
  | error r => exact .done _
  | ok id => exact .own trivial fun _ => .done _

theorem timeUnder_fansOut (n : ℕ) (key : String) : (timeUnder key).FansOut n := by
  refine .own trivial fun x => ?_
  cases x with
  | none => exact .done _
  | some t => exact .done _

end Session

namespace Workplace

variable (p : Workplace)

theorem recordProvision_fansOut (node : Node) : (p.recordProvision node).FansOut p.backends := by
  refine .all trivial fun a => ?_
  cases a with
  | error r => exact .done _
  | ok t => exact .own trivial fun _ => .own trivial fun _ => .done _

theorem recordSchedule_fansOut (pod : Pod) : (p.recordSchedule pod).FansOut p.backends := by
  refine .all trivial fun a => ?_
  cases a with
  | error r => exact .done _
  | ok t => exact .own trivial fun _ => .own trivial fun _ => .done _

theorem updateLabels_fansOut (node : Node) :
    (p.labelsCache.update p.backends node).FansOut p.backends := by
  unfold LabelsCache.update
  split
  · exact .done _
  · refine .all (Nat.le_refl 1) fun a => ?_
    cases a with
    | error r => exact .done _
    | ok n => exact .done _

theorem deleteSession_fansOut (pod : Pod) : (p.deleteSession pod).FansOut p.backends := by
  refine .own trivial fun _ => (setDeletable_fansOut ..).bind fun a => ?_
  cases a with
  | error r => exact .done _
  | ok id => exact .done _

theorem enqueueSession_fansOut (pod : Pod) : (p.enqueueSession pod).FansOut p.backends := by
  refine .own trivial fun _ => (timeUnder_fansOut ..).bind fun a => ?_
  cases a with
  | error r => exact .done _
  | ok tn =>
    refine .own trivial fun _ => (timeUnder_fansOut ..).bind fun a => ?_
    cases a with
    | error r => exact .done _
    | ok tp =>
      refine .own trivial fun _ => (push_fansOut ..).bind fun a => ?_
      cases a with
      | error r => exact .done _
      | ok id => exact .done _

theorem attend_fansOut (f : Fact) : (p.attend f).FansOut p.backends := by
  cases f with
  | node change node =>
    cases change with
    | recordProvision => exact p.recordProvision_fansOut node
    | updateLabels => exact p.updateLabels_fansOut node
    | _ => exact .done _
  | pod change pod =>
    cases change with
    | recordSchedule => exact p.recordSchedule_fansOut pod
    | delete => exact p.deleteSession_fansOut pod
    | ready => exact p.enqueueSession_fansOut pod
    | add => exact .done _
  | nodeWatchFailed message => exact .done _
  | podWatchFailed message => exact .done _

theorem relay_fansOut (fs : List Fact) : (p.relay fs).FansOut p.backends := by
  induction fs with
  | nil => exact .done _
  | cons f fs ih =>
    refine (p.attend_fansOut f).bind fun x => ?_
    cases x with
    | ok u => exact ih
    | error r => exact .done _

theorem relayEach_fansOut (fss : List (List Fact)) : (p.relayEach fss).FansOut p.backends := by
  induction fss with
  | nil => exact .done _
  | cons fs fss ih => exact ((p.relay_fansOut fs).bind fun _ => ih).afterStamps _

end Workplace

/-! ### Runs -/

namespace Pipeline

variable {p : Pipeline} {w : World} {os : List Occasion} {i j : ℕ}

def deeds (p : Pipeline) (w : World) (o : Occasion) : List Deed :=
  (p.on o.resource o.callback).deeds ⟨w, o.weather⟩

def work (p : Pipeline) : World → List Occasion → List Deed
  | _, [] => []
  | w, o :: os => p.deeds w o ++ work p (p.meet w o) os

def Survives (p : Pipeline) : World → List Occasion → Prop
  | _, [] => True
  | w, o :: os =>
    ((p.on o.resource o.callback).play ⟨w, o.weather⟩).2.isSome ∧ Survives p (p.meet w o) os

/-- In every callback of a run two backends fail on the same calls. -/
def FailAlike (p : Pipeline) (i j : ℕ) : World → List Occasion → Prop
  | _, [] => True
  | w, o :: os =>
    failuresAt i (p.deeds w o) = failuresAt j (p.deeds w o) ∧ FailAlike p i j (p.meet w o) os

theorem on_fansOut (hp : p.subscriptions = Handler.wired) (o : Occasion) :
    (p.on o.resource o.callback).FansOut p.workplace.backends := by
  rw [on_eq_relayEach hp]
  exact p.workplace.relayEach_fansOut _

theorem holdingAt_meet (hp : p.subscriptions = Handler.wired) (w : World) (o : Occasion) (i : ℕ) :
    (p.meet w o).holdingAt i = (w.holdingAt i).map (·.takeAll (callsAt i (p.deeds w o))) :=
  Plan.holdingAt_play (on_fansOut hp o).isSingle ⟨w, o.weather⟩ i

theorem holdingAt_meetAll (hp : p.subscriptions = Handler.wired) (w : World) (os : List Occasion)
    (i : ℕ) :
    (p.meetAll w os).holdingAt i = (w.holdingAt i).map (·.takeAll (callsAt i (p.work w os))) := by
  induction os generalizing w with
  | nil => exact Option.map_id'.symm
  | cons o os ih =>
    rw [meetAll_cons, ih, holdingAt_meet hp, Option.map_map, work, callsAt_append]
    simp only [Holding.takeAll_append]
    rfl

theorem requestsTo_work (hp : p.subscriptions = Handler.wired) (h : p.Survives w os)
    (hi : i < p.workplace.backends) : requestsTo i (p.work w os) = requestsTo 0 (p.work w os) := by
  induction os generalizing w with
  | nil => rfl
  | cons o os ih =>
    have hfirst := ((on_fansOut hp o).asks_alike ⟨w, o.weather⟩ hi).2 h.1
    rw [work, requestsTo_append, requestsTo_append, ih h.2]
    exact congrArg (· ++ _) hfirst

/-- Two backends that fail on the same calls are called alike, even if the process dies. -/
theorem callsAt_eq (hp : p.subscriptions = Handler.wired) (hi : i < p.workplace.backends)
    (hj : j < p.workplace.backends) {o : Occasion}
    (h : failuresAt i (p.deeds w o) = failuresAt j (p.deeds w o)) :
    callsAt i (p.deeds w o) = callsAt j (p.deeds w o) := by
  have hlength : (requestsTo i (p.deeds w o)).length = (requestsTo j (p.deeds w o)).length := by
    simpa [requestsTo, failuresAt] using congrArg List.length h
  have hfront := ((on_fansOut hp o).asks_alike ⟨w, o.weather⟩ hi).1
  have hfront' := ((on_fansOut hp o).asks_alike ⟨w, o.weather⟩ hj).1
  have hrequests : requestsTo i (p.deeds w o) = requestsTo j (p.deeds w o) :=
    (List.prefix_of_prefix_length_le hfront hfront' hlength.le).eq_of_length hlength
  have hzip : ∀ k, callsAt k (p.deeds w o) =
      (requestsTo k (p.deeds w o)).zip (failuresAt k (p.deeds w o)) :=
    fun _ => List.zip_of_prod rfl rfl
  rw [hzip i, hzip j, hrequests, h]

theorem holdingAt_eq (hp : p.subscriptions = Handler.wired) (hi : i < p.workplace.backends)
    (hj : j < p.workplace.backends) (hstart : w.holdingAt i = w.holdingAt j)
    (h : p.FailAlike i j w os) : (p.meetAll w os).holdingAt i = (p.meetAll w os).holdingAt j := by
  induction os generalizing w with
  | nil => exact hstart
  | cons o os ih =>
    refine ih ?_ h.2
    rw [holdingAt_meet hp, holdingAt_meet hp, hstart, callsAt_eq hp hi hj h.1]

theorem failAlike_of_healthy (hp : p.subscriptions = Handler.wired) (h : p.Survives w os)
    (hi : i < p.workplace.backends) (hj : j < p.workplace.backends)
    (hok : ∀ b ∈ failuresAt i (p.work w os), b = false)
    (hok' : ∀ b ∈ failuresAt j (p.work w os), b = false) : p.FailAlike i j w os := by
  induction os generalizing w with
  | nil => trivial
  | cons o os ih =>
    have hsplit : ∀ k, failuresAt k (p.work w (o :: os)) =
        failuresAt k (p.deeds w o) ++ failuresAt k (p.work (p.meet w o) os) := by
      intro k
      rw [failuresAt, work, callsAt_append, List.map_append]
      rfl
    rw [hsplit, List.forall_mem_append] at hok hok'
    refine ⟨?_, ih h.2 hok.2 hok'.2⟩
    have hasks : ∀ k < p.workplace.backends,
        requestsTo k (p.deeds w o) = requestsTo 0 (p.deeds w o) := fun k hk =>
      ((on_fansOut hp o).asks_alike ⟨w, o.weather⟩ hk).2 h.1
    have hlength : (requestsTo i (p.deeds w o)).length = (requestsTo j (p.deeds w o)).length :=
      congrArg List.length ((hasks i hi).trans (hasks j hj).symm)
    rw [List.eq_replicate_iff.2 ⟨rfl, hok.1⟩, List.eq_replicate_iff.2 ⟨rfl, hok'.1⟩]
    simpa [requestsTo, failuresAt] using hlength

end Pipeline

theorem Storage.Holding.takeAll_of_healthy (h : Holding) {calls : List (Request × Bool)}
    (hok : ∀ x ∈ calls, x.2 = false) : h.takeAll calls = (calls.map (·.1)).foldl Holding.take h := by
  induction calls generalizing h with
  | nil => rfl
  | cons x calls ih =>
    have hx := hok x (by simp)
    simp only [takeAll, List.foldl_cons, hx, List.map_cons] at ih ⊢
    exact ih _ fun y hy => hok y (by simp [hy])

/-- Two backends that fail on the same calls hold the same after every callback if they do so at the
start, and those that never fail are such as long as the process lives. A backend that never fails has
carried out just what it was asked, each request once and in order; and as long as the process lives,
every backend is asked the same. -/
theorem replicas_agree (s : Settings) (schema : Cluster.Schema) {w : World}
    (hw : w.InMemory) (os : List Occasion) :
    let p := s.pipeline w.backends.length Handler.wired schema
    let healthy (i : ℕ) := ∀ b ∈ failuresAt i (p.work w os), b = false
    (∀ i < w.backends.length, ∀ j < w.backends.length, w.holdingAt i = w.holdingAt j →
      p.FailAlike i j w os ∨ p.Survives w os ∧ healthy i ∧ healthy j →
      (p.meetAll w os).holdingAt i = (p.meetAll w os).holdingAt j) ∧
    (∀ i < w.backends.length, healthy i → ∃ start, w.holdingAt i = some start ∧
      (p.meetAll w os).holdingAt i =
        some ((requestsTo i (p.work w os)).foldl Holding.take start)) ∧
    (p.Survives w os → ∀ i < w.backends.length, ∀ j < w.backends.length,
      requestsTo i (p.work w os) = requestsTo j (p.work w os)) := by
  intro p healthy
  refine ⟨fun i hi j hj hstart hfail => ?_, fun i hi hok => ?_, fun hlives i hi j hj => ?_⟩
  · rcases hfail with hfail | ⟨hlives, hok, hok'⟩
    · exact Pipeline.holdingAt_eq rfl hi hj hstart hfail
    · exact Pipeline.holdingAt_eq rfl hi hj hstart
        (Pipeline.failAlike_of_healthy rfl hlives hi hj hok hok')
  · obtain ⟨m, hm⟩ := hw _ (List.getElem_mem hi)
    have hstart : w.holdingAt i = some m.holding := by
      rw [World.holdingAt, List.getElem?_eq_getElem hi, hm]
      rfl
    have hhealthy : ∀ x ∈ callsAt i (p.work w os), x.2 = false := fun x hx =>
      hok _ (List.mem_map_of_mem hx)
    refine ⟨m.holding, hstart, ?_⟩
    rw [Pipeline.holdingAt_meetAll rfl, hstart, Option.map_some,
      Holding.takeAll_of_healthy _ hhealthy]
    rfl
  · rw [Pipeline.requestsTo_work rfl hlives hi, Pipeline.requestsTo_work rfl hlives hj]

/-- When the pod is ready neither backend takes the task. -/
def Sample.outage : List Occasion :=
  [⟨.nodes, .added node, calm 1000⟩, ⟨.pods, .updated node pending, calm 2000⟩,
    ⟨.pods, .updated pending ready, fun _ => ⟨⟨3000, 0⟩, fun _ => [.append]⟩⟩]

theorem replicas_agree_sample :
    let p := Settings.pipeline {} 2 Handler.wired
    Sample.world.InMemory ∧ p.FailAlike 0 1 Sample.world Sample.outage ∧
      (p.meetAll Sample.world Sample.outage).holdingAt 0 =
        (p.meetAll Sample.world Sample.outage).holdingAt 1 ∧
      true ∈ failuresAt 0 (p.work Sample.world Sample.enqueuing) ∧
      (∀ b ∈ failuresAt 1 (p.work Sample.world Sample.enqueuing), b = false) ∧
      p.Survives Sample.world Sample.enqueuing ∧
      ∃ start, (p.meetAll Sample.world Sample.enqueuing).holdingAt 1 =
        some ((requestsTo 0 (p.work Sample.world Sample.enqueuing)).foldl Holding.take start) := by
  intro p
  have hw : Sample.world.InMemory := by simp [World.InMemory, Sample.world]
  have hfail : p.FailAlike 0 1 Sample.world Sample.outage :=
    ⟨by decide +kernel, by decide +kernel, by decide +kernel, trivial⟩
  have hfirst : true ∈ failuresAt 0 (p.work Sample.world Sample.enqueuing) := by decide +kernel
  have hsecond : ∀ b ∈ failuresAt 1 (p.work Sample.world Sample.enqueuing), b = false := by
    decide +kernel
  have hlives : p.Survives Sample.world Sample.enqueuing :=
    ⟨by decide +kernel, by decide +kernel, by decide +kernel, trivial⟩
  have hsame := (replicas_agree {} .v1 hw Sample.outage).1 0 (by decide) 1 (by decide) rfl (.inl hfail)
  obtain ⟨-, hholds, hasked⟩ := replicas_agree {} .v1 hw Sample.enqueuing
  obtain ⟨start, -, hstart⟩ := hholds 1 (by decide) hsecond
  have hrequests := hasked hlives 0 (by decide) 1 (by decide)
  rw [← hrequests] at hstart
  exact ⟨hw, hfail, hsame, hfirst, hsecond, hlives, start, hstart⟩

end SessionWatch
