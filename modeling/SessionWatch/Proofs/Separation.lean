import SessionWatch.Application
import SessionWatch.Proofs.Facts
import SessionWatch.Proofs.Likeness
import SessionWatch.Proofs.Relay

/-!
Sessions side by side in one monitor. A callback about a node or about a session goes by what that
session sees, so it goes alike in worlds that are the same for the session; a callback about a pod of
another session leaves the world the same for it. So a session fares as it would without the others.
-/

namespace SessionWatch

open Session Cluster

/-! ### Plans that a session sees alike -/

namespace Plan

variable {α β γ δ : Type} {sid : String}

/-- Plans that take the same steps on what a session sees, as long as they are answered alike, and
come to related results. -/
inductive Matches (sid : String) (R : α → β → Prop) : Plan α → Plan β → Prop
  | done {a : α} {b : β} : R a b → Matches sid R (.done a) (.done b)
  | step {s : Step} {next : s.Answer → Plan α} {next' : s.Answer → Plan β} : s.IsSeen sid →
      (∀ x y, s.Agrees x y → Matches sid R (next x) (next' y)) →
      Matches sid R (.step s next) (.step s next')

namespace Matches

variable {p : Plan α} {q : Plan β} {R : α → β → Prop} {S : γ → δ → Prop}

theorem once {s : Step} (hs : s.IsSeen sid) : (Plan.once s).Matches sid s.Agrees (Plan.once s) :=
  .step hs fun _ _ hxy => .done hxy

theorem bind {f : α → Plan γ} {g : β → Plan δ} (h : p.Matches sid R q)
    (hfg : ∀ a b, R a b → (f a).Matches sid S (g b)) :
    (p.bind f).Matches sid S (q.bind g) := by
  induction h with
  | done hab => exact hfg _ _ hab
  | step hs _ ih => exact .step hs ih

theorem bind_tied {p q : Plan (Result α)} {T : Result α → Result α → Prop}
    {f g : Result α → Plan γ} {S : γ → γ → Prop} (h : p.Matches sid T q)
    (hT : ∀ x y, T x y → Storage.Tied x y)
    (hok : ∀ a b, (f (.ok a)).Matches sid S (g (.ok b)))
    (herror : ∀ r r', (f (.error r)).Matches sid S (g (.error r'))) :
    (p.bind f).Matches sid S (q.bind g) := by
  refine h.bind fun x y hxy => ?_
  rcases (hT x y hxy).cases with ⟨a, b, rfl, rfl⟩ | ⟨r, r', rfl, rfl⟩
  · exact hok a b
  · exact herror r r'

theorem afterStamps (h : p.Matches sid R q) (n : ℕ) :
    (p.afterStamps n).Matches sid R (q.afterStamps n) := by
  induction n with
  | zero => exact h
  | succ n ih => exact .step .stamp fun _ _ _ => ih

theorem play (h : p.Matches sid R q) {w v : World} (hwv : w.AlikeFor sid v) (ω : Weather) :
    (p.play ⟨w, ω⟩).1.world.AlikeFor sid (q.play ⟨v, ω⟩).1.world := by
  induction h generalizing w v ω with
  | done _ => exact hwv
  | @step s next next' hs _ ih =>
    have hanswers := hwv.answers (ω 0) hs
    have hunder := hwv.under (ω 0) hs
    rw [play_step, play_step, Scene.perform_eq, Scene.perform_eq]
    rcases hw : w.under (ω 0) s with ⟨w', x⟩
    rcases hv : v.under (ω 0) s with ⟨v', y⟩
    rw [hw, hv] at hanswers hunder
    cases hanswers with
    | none => exact hunder
    | some hxy => exact ih _ _ hxy hunder _

end Matches

end Plan

namespace Storage

variable {sid : String}

structure Tally.Agrees (q : Request) (t t' : Tally q.Answer) : Prop where
  failures : t.failures.isSome = t'.failures.isSome
  last : t.last.isSome = t'.last.isSome
  time : q = .time → t = t'

namespace Tally.Agrees

variable {q : Request} {t t' : Tally q.Answer}

theorem record {x y : Result q.Answer} (h : t.Agrees q t') (hxy : q.Agrees x y) :
    (t.record x).Agrees q (t'.record y) := by
  have htime : q = .time → t.record x = t'.record y := fun hq => by rw [h.time hq, hxy.2 hq]
  rcases hxy.1.cases with ⟨a, b, rfl, rfl⟩ | ⟨r, r', rfl, rfl⟩
  · exact ⟨h.failures, rfl, htime⟩
  · have hsome : ∀ (t : Tally q.Answer) r, (t.record (.error r)).failures.isSome = true := by
      intro t r
      simp only [Tally.record]
      cases t.failures <;> rfl
    exact ⟨by rw [hsome, hsome], h.last, htime⟩

theorem verdict (h : t.Agrees q t') : q.Agrees t.verdict t'.verdict := by
  obtain ⟨hfailures, hlast, htime⟩ := h
  refine ⟨?_, fun hq => by rw [htime hq]⟩
  simp only [Tally.verdict]
  cases hf : t.failures with
  | some r =>
    obtain ⟨r', hf'⟩ := Option.isSome_iff_exists.1 (by rw [← hfailures, hf]; rfl)
    rw [hf']
    rfl
  | none =>
    have hf' : t'.failures = none := by simpa [hf] using hfailures
    rw [hf']
    cases hl : t.last with
    | some a =>
      obtain ⟨b, hl'⟩ := Option.isSome_iff_exists.1 (by rw [← hlast, hl]; rfl)
      rw [hl']
      rfl
    | none =>
      have hl' : t'.last = none := by simpa [hl] using hlast
      rw [hl']
      rfl

end Tally.Agrees

theorem fanOut_matches (n : ℕ) (r : Request) :
    (fanOut n r).Matches sid r.Agrees (fanOut n r) := by
  have hask : ∀ (is : List ℕ) t t', t.Agrees r t' →
      (askEach r t is).Matches sid (Tally.Agrees r) (askEach r t' is) := by
    intro is
    induction is with
    | nil => exact fun t t' ht => .done ht
    | cons i is ih =>
      intro t t' ht
      exact (Plan.Matches.once (.exchange i r)).bind fun x y hxy => ih _ _ (ht.record hxy)
  exact (hask _ _ _ ⟨rfl, rfl, fun _ => rfl⟩).bind fun t t' ht => .done ht.verdict

end Storage

namespace Session

variable {sid : String}

theorem push_matches (n : ℕ) (stream : String) (kind : TaskKind) (info : String) :
    (push n stream kind info).Matches sid Storage.Tied (push n stream kind info) := by
  refine (Storage.fanOut_matches n .time).bind fun x y hxy => ?_
  obtain rfl := hxy.2 rfl
  cases x with
  | error r => exact .done rfl
  | ok t =>
    exact (Storage.fanOut_matches n _).bind_tied (fun _ _ h => h.1) (fun _ _ => .done rfl)
      fun _ _ => .done rfl

end Session

namespace Workplace

variable {sid : String} (w : Workplace)

theorem recordProvision_matches (node : Node) :
    (w.recordProvision node).Matches sid Storage.Tied (w.recordProvision node) := by
  refine (Storage.fanOut_matches w.backends .time).bind fun x y hxy => ?_
  obtain rfl := hxy.2 rfl
  cases x with
  | error r => exact .done rfl
  | ok t =>
    refine (Plan.Matches.once (.note _)).bind fun _ _ _ => ?_
    exact (Plan.Matches.once (.rememberNode node.name t)).bind fun _ _ _ => .done rfl

theorem updateLabels_matches (node : Node) :
    (w.labelsCache.update w.backends node).Matches sid Storage.Tied
      (w.labelsCache.update w.backends node) := by
  unfold LabelsCache.update
  split
  · exact .done rfl
  · exact (Storage.fanOut_matches w.backends _).bind_tied (fun _ _ h => h.1) (fun _ _ => .done rfl)
      fun _ _ => .done rfl

theorem recordSchedule_matches (pod : Pod) :
    (w.recordSchedule pod).Matches pod.sessionId Storage.Tied (w.recordSchedule pod) := by
  refine (Storage.fanOut_matches w.backends .time).bind fun x y hxy => ?_
  obtain rfl := hxy.2 rfl
  cases x with
  | error r => exact .done rfl
  | ok t =>
    refine (Plan.Matches.once (.note _)).bind fun _ _ _ => ?_
    exact (Plan.Matches.once (.remember t)).bind fun _ _ _ => .done rfl

theorem deleteSession_matches (pod : Pod) :
    (w.deleteSession pod).Matches pod.sessionId Storage.Tied (w.deleteSession pod) := by
  have hdelete : (setDeletable w.backends w.streams ⟨pod.sessionId⟩).Matches pod.sessionId
      Storage.Tied (setDeletable w.backends w.streams ⟨pod.sessionId⟩) := by
    refine (push_matches ..).bind_tied (fun _ _ h => h) (fun _ _ => ?_) fun _ _ => .done rfl
    exact (Plan.Matches.once .forget).bind fun _ _ _ => .done rfl
  refine (Plan.Matches.once (.note _)).bind fun _ _ _ => ?_
  exact hdelete.bind_tied (fun _ _ h => h) (fun _ _ => .done rfl) fun _ _ => .done rfl

theorem enqueueSession_matches (pod : Pod) :
    (w.enqueueSession pod).Matches pod.sessionId Storage.Tied (w.enqueueSession pod) := by
  have htime : ∀ key, (Step.consult key).IsSeen pod.sessionId →
      (timeUnder key).Matches pod.sessionId Eq (timeUnder key) := by
    intro key hkey
    refine (Plan.Matches.once hkey).bind fun x y hxy => ?_
    obtain rfl : x = y := hxy
    cases x with
    | none => exact .done rfl
    | some t => exact .done rfl
  refine (Plan.Matches.once (.note _)).bind fun _ _ _ => ?_
  refine (htime _ (.consultNode pod.nodeName)).bind fun x y hxy => ?_
  obtain rfl : x = y := hxy
  cases x with
  | error r => exact .done rfl
  | ok tn =>
    refine (Plan.Matches.once (.note _)).bind fun _ _ _ => ?_
    refine (htime _ .consult).bind fun x y hxy => ?_
    obtain rfl : x = y := hxy
    cases x with
    | error r => exact .done rfl
    | ok tp =>
      refine (Plan.Matches.once (.note _)).bind fun _ _ _ => ?_
      exact (push_matches ..).bind_tied (fun _ _ h => h) (fun _ _ => .done rfl) fun _ _ => .done rfl

theorem attend_matches {f : Fact} (hf : ∀ change pod, f = .pod change pod → pod.sessionId = sid) :
    (w.attend f).Matches sid Storage.Tied (w.attend f) := by
  cases f with
  | node change node =>
    cases change with
    | recordProvision => exact w.recordProvision_matches node
    | updateLabels => exact w.updateLabels_matches node
    | _ => exact .done rfl
  | pod change pod =>
    obtain rfl : pod.sessionId = sid := hf change pod rfl
    cases change with
    | recordSchedule => exact w.recordSchedule_matches pod
    | delete => exact w.deleteSession_matches pod
    | ready => exact w.enqueueSession_matches pod
    | add => exact .done rfl
  | nodeWatchFailed message => exact .done rfl
  | podWatchFailed message => exact .done rfl

theorem relay_matches {fs : List Fact}
    (hfs : ∀ change pod, .pod change pod ∈ fs → pod.sessionId = sid) :
    (w.relay fs).Matches sid Storage.Tied (w.relay fs) := by
  induction fs with
  | nil => exact .done rfl
  | cons f fs ih =>
    have hf := w.attend_matches (f := f) fun change pod h => hfs change pod (by simp [h])
    refine hf.bind_tied (fun _ _ h => h) (fun _ _ => ?_) fun _ _ => .done rfl
    exact ih fun change pod h => hfs change pod (by simp [h])

theorem relayEach_matches {fss : List (List Fact)}
    (hfss : ∀ change pod, .pod change pod ∈ fss.flatten → pod.sessionId = sid) :
    (w.relayEach fss).Matches sid (fun _ _ => True) (w.relayEach fss) := by
  induction fss with
  | nil => exact .done trivial
  | cons fs fss ih =>
    rw [List.flatten_cons] at hfss
    have hfs := w.relay_matches fun change pod h => hfss change pod (List.mem_append_left _ h)
    have hrest := ih fun change pod h => hfss change pod (List.mem_append_right _ h)
    exact (hfs.bind fun _ _ _ => hrest).afterStamps fs.length

end Workplace

/-! ### What is nothing to a session -/

namespace Session

variable {sid stream key : String} {f : Storage.Fields}

theorem isFor_of_ready {r : Ready} (h : Carries stream .enqueue r.encode key f) :
    isFor sid f = (r.sessionId == sid) := by
  simp [isFor, h.lookup_kind, h.lookup_info, TaskKind.name]

theorem isFor_of_deletable {d : Deletable} (h : Carries stream .delete d.encode key f) :
    isFor sid f = (d.sessionId == sid) := by
  simp [isFor, h.lookup_kind, h.lookup_info, TaskKind.name]

end Session

/-- A fact that tells of no node, and of the session at most that a pod was added. -/
structure Fact.Spares (sid : String) (f : Fact) : Prop where
  node : ∀ change node, f ≠ .node change node
  pod : ∀ change pod, f = .pod change pod → pod.sessionId = sid → change = .add

namespace Effect

variable {sid : String} {streams : Streams} {w v : World} {fact : Fact} {x : Option (Result Unit)}

theorem isFor_of_spares (hfact : fact.Spares sid) {key : String} {f : Storage.Fields}
    (h : Appended streams w key f fact) : isFor sid f = false := by
  cases h with
  | @enqueued pod tn tp _ _ hcarries =>
    have hne : pod.sessionId ≠ sid := fun hsid => by cases hfact.pod _ _ rfl hsid
    rw [isFor_of_ready hcarries]
    simpa using hne
  | @deleted pod hcarries =>
    have hne : pod.sessionId ≠ sid := fun hsid => by cases hfact.pod _ _ rfl hsid
    rw [isFor_of_deletable hcarries]
    simpa using hne

theorem sameFor (h : Effect streams w v fact x) (hfact : fact.Spares sid) : w.SameFor sid v where
  node n := (h.node_kept fun node hn => absurd hn (hfact.node _ node)).symm
  session := by
    rcases h.session_cases sid with ⟨-, hkept⟩ | ⟨pod, t, hpod, hsid, -⟩ | ⟨pod, hpod, hsid, -⟩
    · exact hkept.symm
    · cases hfact.pod _ _ hpod hsid
    · cases hfact.pod _ _ hpod hsid
  entries i key := by
    obtain ⟨new, hnew, happended⟩ := h.grows i key
    have hothers : new.filter (isFor sid) = [] := List.filter_eq_nil_iff.2 fun f hf => by
      simp [isFor_of_spares hfact (happended f hf)]
    rw [hnew, List.filter_append, hothers, List.append_nil]

end Effect

theorem Course.sameFor {p : Pipeline} {w v : World} {hs : List Handling} {sid : String}
    (hp : p.subscriptions = Handler.wired) (hc : Course p w hs v)
    (hspares : ∀ h ∈ hs, h.event.fact.Spares sid) : w.SameFor sid v := by
  induction hc with
  | quiet hq => exact .of_quiet hq
  | @handled w v h hs hq hg _ ih =>
    have hafter := (hg.effect hp).sameFor (hspares h (by simp))
    exact ((World.SameFor.of_quiet hq).trans hafter).trans (ih fun g hg => hspares g (by simp [hg]))

/-- A callback about a pod whose object, if there is one, does not carry the session. -/
structure Occasion.IsForeign (rules : PodWatch.Rules) (sid : String) (o : Occasion) : Prop where
  resource : o.resource = .pods
  object : ∀ obj, o.callback.object? = some obj → obj.labels.get? rules.sessionLabel ≠ some sid

namespace Pipeline

variable {p : Pipeline} {sid : String} {w v : World} {o : Occasion}

theorem spares_of_isForeign (ho : o.IsForeign p.rules sid) {f : Fact}
    (hf : f ∈ p.facts o.resource o.callback) : f.Spares sid := by
  rw [ho.resource] at hf
  rcases PodWatch.of_mem_facts (mem_facts_pods.1 hf) with
    ⟨message, rfl⟩ | ⟨obj, seen, change, pod, hobj, hseen, rfl, hpod, hchange⟩
  · exact ⟨nofun, nofun⟩
  · refine ⟨nofun, ?_⟩
    rintro _ _ ⟨⟩ hsid
    refine hchange.resolve_right fun hin => ?_
    have hlabel := (PodWatch.of_observed? hseen).1
    have hnamed : seen.pod.sessionId ≠ "" := by
      simp only [PodWatch.Observed.inSession, Bool.and_eq_true, bne_iff_ne] at hin
      exact hin.1
    cases hget : obj.labels.get? p.rules.sessionLabel with
    -- A pod without the label has an empty session id, and so is in no session.
    | none => exact hnamed (by rw [hlabel, hget]; rfl)
    | some name =>
      have hname : name = sid := by rw [← hsid, hpod, hlabel, hget]; rfl
      exact ho.object obj hobj (hname ▸ hget)

theorem session_of_mem_facts (ho : ¬ o.IsForeign p.rules sid) {change : PodChange} {pod : Pod}
    (hf : .pod change pod ∈ p.facts o.resource o.callback) : pod.sessionId = sid := by
  obtain ⟨hresource, hpods⟩ := pod_of_mem_facts hf
  rcases PodWatch.of_mem_facts hpods with
    ⟨message, hfailed⟩ | ⟨obj, seen, _, _, hobj, hseen, hfact, hpod, -⟩
  · cases hfailed
  · cases hfact
    have hlabel : obj.labels.get? p.rules.sessionLabel = some sid := by
      by_contra hne
      refine ho ⟨hresource, fun obj' hobj' => ?_⟩
      obtain rfl : obj = obj' := Option.some.inj (hobj.symm.trans hobj')
      exact hne
    rw [hpod, (PodWatch.of_observed? hseen).1, hlabel]
    rfl

theorem alikeFor_of_isForeign (hp : p.subscriptions = Handler.wired)
    (ho : o.IsForeign p.rules sid) (hw : w.AlikeFor sid w) : w.AlikeFor sid (p.meet w o) :=
  ⟨(p.course_handlings w o).sameFor hp fun _ hh => spares_of_isForeign ho (p.facts_handlings hh),
    Plan.play_stores _ o.weather hw.stores⟩

theorem alikeFor_meet (hp : p.subscriptions = Handler.wired) (h : w.AlikeFor sid v) (o : Occasion) :
    (p.meet w o).AlikeFor sid (p.meet v o) := by
  by_cases ho : o.IsForeign p.rules sid
  · -- The callback may go differently in the two worlds, but it is nothing to the session in either.
    have hleft := alikeFor_of_isForeign hp ho (h.trans h.symm)
    have hright := alikeFor_of_isForeign hp ho (h.symm.trans h)
    exact (hleft.symm.trans h).trans hright
  · have hmatches : (p.on o.resource o.callback).Matches sid (fun _ _ => True)
        (p.on o.resource o.callback) := by
      rw [on_eq_relayEach hp]
      refine p.workplace.relayEach_matches fun change pod hf => ?_
      rw [flatten_publications] at hf
      exact session_of_mem_facts ho hf
    exact hmatches.play h o.weather

/-- Foreign callbacks may be left out of one of two runs. -/
theorem alikeFor_meetAll (hp : p.subscriptions = Handler.wired) {os : List Occasion}
    {keep : Occasion → Bool} (hkeep : ∀ o ∈ os, keep o = false → o.IsForeign p.rules sid)
    (h : w.AlikeFor sid v) : (p.meetAll w os).AlikeFor sid (p.meetAll v (os.filter keep)) := by
  induction os generalizing w v with
  | nil => exact h
  | cons o os ih =>
    have hrest : ∀ o ∈ os, keep o = false → o.IsForeign p.rules sid := fun o' ho' =>
      hkeep o' (by simp [ho'])
    cases ho : keep o with
    | true =>
      rw [List.filter_cons_of_pos ho, meetAll_cons, meetAll_cons]
      exact ih hrest (alikeFor_meet hp h o)
    | false =>
      have hforeign := alikeFor_of_isForeign hp (hkeep o (by simp) ho) (h.trans h.symm)
      rw [List.filter_cons_of_neg (by simp [ho]), meetAll_cons]
      exact ih hrest (hforeign.symm.trans h)

end Pipeline

/-- Leaving callbacks about pods of other sessions out of a run changes neither the time of a session
nor that of any node, nor in any backend the entries for the session. -/
theorem sessions_do_not_interfere (s : Settings) (schema : Schema) (n : ℕ) {w : World}
    (hw : w.InMemory) (sid : String) (os : List Occasion) (keep : Occasion → Bool)
    (hkeep : ∀ o ∈ os, keep o = false → o.IsForeign s.podRules sid) :
    ((s.pipeline n Handler.wired schema).meetAll w os).AlikeFor sid
      ((s.pipeline n Handler.wired schema).meetAll w (os.filter keep)) :=
  Pipeline.alikeFor_meetAll rfl hkeep hw.alikeFor

def Sample.other : Object :=
  { pending with metadata := { name := some "p2", labels := some (.ofList [("sessionId", "s2")]) } }

/-- The pods of two sessions are scheduled on a node, and one of them is ready. -/
def Sample.shared : List Occasion :=
  [⟨.nodes, .added node, calm 1000⟩, ⟨.pods, .updated node pending, calm 2000⟩,
    ⟨.pods, .updated node other, calm 3000⟩, ⟨.pods, .updated pending ready, calm 4000⟩]

def Sample.isOwn (o : Occasion) : Bool :=
  (o.callback.object?.bind fun obj => obj.labels.get? "sessionId") != some "s2"

theorem sessions_do_not_interfere_sample :
    Sample.world.InMemory ∧
      (∀ o ∈ Sample.shared, Sample.isOwn o = false → o.IsForeign (Settings.podRules {}) "s1") ∧
      (Sample.shared.filter Sample.isOwn).length = 3 ∧
      ((Settings.pipeline {} 2 Handler.wired).meetAll Sample.world Sample.shared).AlikeFor "s1"
        ((Settings.pipeline {} 2 Handler.wired).meetAll Sample.world
          (Sample.shared.filter Sample.isOwn)) := by
  have hw : Sample.world.InMemory := by simp [World.InMemory, Sample.world]
  have hkeep : ∀ o ∈ Sample.shared, Sample.isOwn o = false →
      o.IsForeign (Settings.podRules {}) "s1" := by
    intro o ho hown
    simp only [Sample.shared, List.mem_cons, List.not_mem_nil, or_false] at ho
    rcases ho with rfl | rfl | rfl | rfl
    · exact absurd hown (by decide +kernel)
    · exact absurd hown (by decide +kernel)
    · refine ⟨rfl, ?_⟩
      rintro obj ⟨⟩
      decide +kernel
    · exact absurd hown (by decide +kernel)
  have hlength : (Sample.shared.filter Sample.isOwn).length = 3 := by decide +kernel
  exact ⟨hw, hkeep, hlength,
    sessions_do_not_interfere {} .v1 2 hw "s1" Sample.shared Sample.isOwn hkeep⟩

end SessionWatch
