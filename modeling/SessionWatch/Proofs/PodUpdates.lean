import SessionWatch.Proofs.Requests

/-!
What an update of a pod has published. It goes by the object alone: whether the pod is in a session,
its phase, its conditions and its containers. Each fact is published on its own, so that a
subscriber that fails on one does not keep the next one back.
-/

namespace SessionWatch

open Session Storage Cluster

/-! ### What onlookers are shown -/

def Note.shown? : Note → Option (Fact × Labels)
  | .offered e => some (e.fact, e.metadata)
  | _ => none

def Step.shown : Step → List (Fact × Labels)
  | .note n => n.shown?.toList
  | _ => []

theorem Scene.notes_perform (c : Scene) (s : Step) :
    ∃ ns, (c.perform s).1.world.notes = c.world.notes ++ ns ∧
      ns.filterMap Note.shown? = s.shown := by
  cases s with
  | note n => exact ⟨[n], rfl, by cases hn : n.shown? <;> simp [Step.shown, hn]⟩
  | exchange i r =>
    refine ⟨[], ?_, rfl⟩
    rw [List.append_nil]
    show ((c.world.facing (c.weather 0) (.exchange i r)).exchange i r).1.notes = c.world.notes
    unfold World.exchange
    split <;> rfl
  | _ => exact ⟨[], (List.append_nil _).symm, rfl⟩

namespace Plan

variable {α β : Type} {p : Plan α} {fs gs : List (Fact × Labels)}

/-- Whatever the plan is answered, an onlooker is shown just these. -/
def Shows : Plan α → List (Fact × Labels) → Prop
  | .done _, fs => fs = []
  | .step s next, fs => ∃ rest, fs = s.shown ++ rest ∧ ∀ x, (next x).Shows rest

theorem Shows.bind {f : α → Plan β} (hp : p.Shows fs) (hf : ∀ a, (f a).Shows gs) :
    (p.bind f).Shows (fs ++ gs) := by
  induction p generalizing fs with
  | done a =>
    obtain rfl : fs = [] := hp
    exact hf a
  | step s next ih =>
    obtain ⟨rest, rfl, hrest⟩ := hp
    exact ⟨rest ++ gs, List.append_assoc .., fun x => ih x (hrest x)⟩

abbrev Silent (p : Plan α) : Prop := p.Shows []

theorem Silent.bind {f : α → Plan β} (hp : p.Silent) (hf : ∀ a, (f a).Silent) :
    (p.bind f).Silent := Shows.bind hp hf

theorem once_shows (s : Step) : (once s).Shows s.shown :=
  ⟨[], (List.append_nil _).symm, fun _ => rfl⟩

theorem Shows.play (hp : p.Shows fs) {c c' : Scene} {a : α} (h : p.play c = (c', some a)) :
    ∃ ns, c'.world.notes = c.world.notes ++ ns ∧ ns.filterMap Note.shown? = fs := by
  induction p generalizing c fs with
  | done b =>
    obtain rfl : fs = [] := hp
    obtain rfl := congrArg Prod.fst h
    exact ⟨[], (List.append_nil _).symm, rfl⟩
  | step s next ih =>
    obtain ⟨rest, rfl, hrest⟩ := hp
    obtain ⟨ns, hns, hshown⟩ := c.notes_perform s
    rw [play_step] at h
    rcases hs : c.perform s with ⟨c₁, _ | x⟩ <;> rw [hs] at h hns
    · cases congrArg Prod.snd h
    · obtain ⟨more, hmore, hlater⟩ := ih x (hrest x) h
      refine ⟨ns ++ more, by rw [hmore, hns, List.append_assoc], ?_⟩
      rw [List.filterMap_append, hshown, hlater]

end Plan

/-! ### Handlers of facts about pods -/

theorem Storage.fanOut_silent (n : ℕ) (r : Request) : (fanOut n r).Silent := by
  have hask : ∀ t is, (askEach r t is).Silent := by
    intro t is
    induction is generalizing t with
    | nil => rfl
    | cons i is ih => exact ⟨[], rfl, fun a => ih (t.record a)⟩
  exact (hask _ _).bind fun _ => rfl

namespace Session

theorem push_silent (n : ℕ) (stream : String) (kind : TaskKind) (info : String) :
    (push n stream kind info).Silent := by
  refine (fanOut_silent n .time).bind fun a => ?_
  cases a with
  | error r => rfl
  | ok t =>
    refine (fanOut_silent n _).bind fun b => ?_
    cases b <;> rfl

theorem setDeletable_silent (n : ℕ) (streams : Streams) (d : Deletable) :
    (setDeletable n streams d).Silent := by
  refine (push_silent ..).bind fun a => ?_
  cases a with
  | error r => rfl
  | ok id => exact (Plan.once_shows (.forget _)).bind fun _ => rfl

theorem timeUnder_silent (key : String) : (timeUnder key).Silent := by
  refine Plan.Silent.bind (Plan.once_shows (.consult key)) fun x => ?_
  cases x <;> rfl

end Session

namespace Workplace

variable (w : Workplace)

theorem recordSchedule_silent (pod : Pod) : (w.recordSchedule pod).Silent := by
  refine (fanOut_silent w.backends .time).bind fun a => ?_
  cases a with
  | error r => rfl
  | ok t => exact ⟨[], rfl, fun _ => (Plan.once_shows (.remember _ t)).bind fun _ => rfl⟩

theorem deleteSession_silent (pod : Pod) : (w.deleteSession pod).Silent := by
  refine ⟨[], rfl, fun _ => (setDeletable_silent ..).bind fun a => ?_⟩
  cases a <;> rfl

theorem enqueueSession_silent (pod : Pod) : (w.enqueueSession pod).Silent := by
  refine ⟨[], rfl, fun _ => (timeUnder_silent _).bind fun a => ?_⟩
  cases a with
  | error r => rfl
  | ok tn =>
    refine ⟨[], rfl, fun _ => (timeUnder_silent _).bind fun b => ?_⟩
    cases b with
    | error r => rfl
    | ok tp =>
      refine ⟨[], rfl, fun _ => (push_silent ..).bind fun x => ?_⟩
      cases x <;> rfl

end Workplace

/-! ### Publication past an onlooker -/

/-- A plan that comes to an end whatever it is answered, and in which an onlooker is shown just
these. -/
structure Plan.Offers {α : Type} (p : Plan α) (fs : List (Fact × Labels)) : Prop where
  shows : p.Shows fs
  lasting : p.Only Request.Lasting

theorem Plan.Offers.bind {α β : Type} {p : Plan α} {f : α → Plan β} {fs gs : List (Fact × Labels)}
    (hp : p.Offers fs) (hf : ∀ a, (f a).Offers gs) : (p.bind f).Offers (fs ++ gs) :=
  ⟨hp.shows.bind fun a => (hf a).shows, hp.lasting.bind fun a => (hf a).lasting⟩

theorem Plan.offers_done {α : Type} (a : α) : (Plan.done a).Offers [] := ⟨rfl, trivial⟩

theorem Plan.offers_once {s : Step} (hs : s.IsOwn) : (Plan.once s).Offers s.shown :=
  ⟨Plan.once_shows s, Plan.once_only hs⟩

/-- No onlooker, who is shown events before the others. -/
def Handler.IsOther (h : Handler) : Prop := ∀ failing, h ≠ .offered failing

namespace Workplace

variable (w : Workplace) {e : Event} {change : PodChange} {pod : Pod}

theorem handlePods_offers (he : e.fact = .pod change pod) : (w.handle .pods e).Offers [] := by
  show (w.handlePods e.fact).Offers []
  rw [he]
  cases change with
  | add => exact Plan.offers_done _
  | recordSchedule =>
    refine ⟨w.recordSchedule_silent pod, (w.recordSchedule_only pod).mono ?_⟩
    rintro r rfl
    trivial
  | delete =>
    refine ⟨w.deleteSession_silent pod, (w.deleteSession_only pod).mono ?_⟩
    rintro r (rfl | ⟨t, rfl⟩) <;> trivial
  | ready =>
    refine ⟨w.enqueueSession_silent pod, (w.enqueueSession_only pod).mono ?_⟩
    rintro r (rfl | ⟨tn, tp, t, rfl⟩) <;> trivial

theorem handle_offers (he : e.fact = .pod change pod) {h : Handler} (hh : h.IsOther) :
    (w.handle h e).Offers [] := by
  cases h with
  | nodes =>
    show (w.handleNodes e.fact).Offers []
    rw [he]
    exact Plan.offers_done _
  | pods => exact w.handlePods_offers he
  | offered failing => exact absurd rfl (hh failing)
  | handled => exact (Plan.offers_once (s := .note (.handled e)) trivial).bind fun _ =>
      Plan.offers_done _

theorem deliver_offers (he : e.fact = .pod change pod) {hs : List Handler}
    (hhs : ∀ h ∈ hs, h.IsOther) : (Dispatch.deliver w.handle e hs).Offers [] := by
  induction hs with
  | nil => exact Plan.offers_done _
  | cons h hs ih =>
    refine (w.handle_offers he (hhs h (by simp))).bind fun x => ?_
    cases x with
    | ok u => exact ih fun h' hh' => hhs h' (by simp [hh'])
    | error r => exact Plan.offers_done _

theorem deliver_offered (he : e.fact = .pod change pod) (failing : List String) {hs : List Handler}
    (hhs : ∀ h ∈ hs, h.IsOther) :
    (Dispatch.deliver w.handle e (.offered failing :: hs)).Offers [(e.fact, e.metadata)] := by
  have hnote : (w.handle (.offered failing) e).Offers [(e.fact, e.metadata)] := by
    refine (Plan.offers_once (s := .note (.offered e)) trivial).bind fun _ => ?_
    by_cases hfails : failing.contains e.name = true
    · rw [if_pos hfails]
      exact Plan.offers_done _
    · rw [if_neg hfails]
      exact Plan.offers_done _
  refine hnote.bind fun x => ?_
  cases x with
  | ok u => exact w.deliver_offers he hhs
  | error r => exact Plan.offers_done _

end Workplace

namespace Pipeline

/-- A pipeline with an onlooker in front of all subscribers, which fails on events of some names. -/
def lookedAt (p : Pipeline) (failing : List String) : Pipeline :=
  { p with subscriptions := ⟨[], .offered failing⟩ :: p.subscriptions }

variable {p : Pipeline} {failing : List String}

theorem announce_offers (hp : ∀ s ∈ p.subscriptions, s.handler.IsOther) (change : PodChange)
    (pod : Pod) : ((p.lookedAt failing).announce (.pod change pod)).Offers
      [(.pod change pod, ∅)] := by
  have hhandlers : ∀ name, ∀ h ∈ Subscription.handlersFor p.subscriptions name, h.IsOther := by
    intro name h hh
    obtain ⟨s, hs, rfl⟩ := List.mem_map.1 hh
    exact hp s (List.mem_filter.1 hs).1
  have hpublish : ∀ s : Stamp, ((p.lookedAt failing).publish [⟨s, .pod change pod, ∅⟩]).Offers
      [(.pod change pod, ∅)] := by
    intro s
    refine (p.workplace.deliver_offered rfl failing (hhandlers _)).bind fun x => ?_
    cases x <;> exact Plan.offers_done _
  refine (Plan.offers_once (s := .stamp) trivial).bind fun s => ?_
  exact (hpublish s).bind fun _ => Plan.offers_done _

theorem announceAll_offers (hp : ∀ s ∈ p.subscriptions, s.handler.IsOther) {fs : List Fact}
    (hfs : ∀ f ∈ fs, ∃ change pod, f = .pod change pod) :
    ((p.lookedAt failing).announceAll fs).Offers (fs.map fun f => (f, ∅)) := by
  induction fs with
  | nil => exact Plan.offers_done ()
  | cons f fs ih =>
    obtain ⟨change, pod, rfl⟩ := hfs f (by simp)
    exact (announce_offers hp change pod).bind fun _ => ih fun g hg => hfs g (by simp [hg])

end Pipeline

/-! ### What an object says of its pod -/

namespace Cluster.PodWatch

variable (schema : Schema) (rules : Rules) (o : Object)

/-- A pod that can be read, has a name and a session, and is not opted out. -/
structure InSession : Prop where
  reads : schema.pod o = true
  named : o.metadata.name.isSome
  session : ∃ id, o.labels.get? rules.sessionLabel = some id ∧ id ≠ ""
  managed : o.labels.get? rules.managedLabel ≠ some "false"

def phaseOf : String := textOf (contentField o "status") "phase"

/-- Some condition of this type has the status `True`. -/
def HasCondition (type : String) : Prop :=
  ∃ c ∈ listOf (contentField o "status") "conditions",
    textOf (some c) "type" = type ∧ textOf (some c) "status" = "True"

instance (type : String) : Decidable (HasCondition o type) :=
  inferInstanceAs (Decidable (∃ c ∈ listOf (contentField o "status") "conditions",
    textOf (some c) "type" = type ∧ textOf (some c) "status" = "True"))

def HasReadyConditions : Prop :=
  HasCondition o "Initialized" ∧ HasCondition o "PodScheduled" ∧
    HasCondition o "ContainersReady" ∧ HasCondition o "Ready"

instance : Decidable (HasReadyConditions o) :=
  inferInstanceAs (Decidable (HasCondition o "Initialized" ∧ HasCondition o "PodScheduled" ∧
    HasCondition o "ContainersReady" ∧ HasCondition o "Ready"))

/-- Some container has terminated. Those that only initialize the pod do not count. -/
def HasTerminatedContainer : Prop :=
  ∃ c ∈ listOf (contentField o "status") "containerStatuses", ∃ state fields,
    c.field? "state" = some state ∧ state.field? "terminated" = some (.obj fields)

theorem any_hasTerminated_iff :
    (listOf (contentField o "status") "containerStatuses").any hasTerminated = true ↔
      HasTerminatedContainer o := by
  simp only [List.any_eq_true, hasTerminated_iff, HasTerminatedContainer]

instance : Decidable (HasTerminatedContainer o) := decidable_of_iff _ (any_hasTerminated_iff o)

def podOf : Pod where
  name := o.metadata.name.getD ""
  ns := o.metadata.ns.getD ""
  sessionId := (o.labels.get? rules.sessionLabel).getD ""
  nodeName := textOf (contentField o "spec") "nodeName"
  ip := textOf (contentField o "status") "podIP"

def namedPodOf : Pod where
  name := o.metadata.name.getD ""
  ns := o.metadata.ns.getD ""
  sessionId := (o.labels.get? rules.sessionLabel).getD ""

/-- The facts that an update to this object comes to. -/
structure Updated (fs : List Fact) : Prop where
  outside : ¬ InSession schema rules o → fs = []
  ended : InSession schema rules o → phaseOf o ∈ ["Failed", "Succeeded", "Unknown"] →
    fs = [.pod .delete (namedPodOf rules o)]
  pending : InSession schema rules o → phaseOf o = "Pending" →
    fs = if HasCondition o "PodScheduled" then [.pod .recordSchedule (namedPodOf rules o)] else []
  running : InSession schema rules o → phaseOf o = "Running" →
    fs = (if HasReadyConditions o ∧ o.metadata.deleting = false then
        [.pod .ready (podOf rules o)] else []) ++
      if (HasReadyConditions o ∧ o.metadata.deleting = true) ∨ HasTerminatedContainer o then
        [.pod .delete (namedPodOf rules o)] else []
  other : phaseOf o ∉ ["Failed", "Succeeded", "Unknown", "Pending", "Running"] → fs = []

variable {schema rules o}

def observationOf (rules : Rules) (o : Object) : Observed where
  pod := podOf rules o
  managed := o.labels.get? rules.managedLabel != some "false"
  phase := phaseOf o
  conditions := (listOf (contentField o "status") "conditions").map fun c =>
    (textOf (some c) "type", textOf (some c) "status")
  deleting := o.metadata.deleting
  crashed := (listOf (contentField o "status") "containerStatuses").any hasTerminated

theorem observed?_eq (schema : Schema) (rules : Rules) (o : Object) : observed? schema rules o =
    if schema.pod o = true ∧ o.metadata.name.isSome then some (observationOf rules o)
    else none := by
  unfold observed? read Object.properName
  by_cases hreads : schema.pod o = true
  · cases hname : o.metadata.name with
    | none => simp [hreads, bind, Except.bind, Except.toOption]
    | some name =>
      simp [hreads, bind, Except.bind, pure, Except.pure, Except.toOption, observationOf, podOf,
        phaseOf, hname]
  · simp [hreads, Except.toOption]

theorem inSession_observationOf : (observationOf rules o).inSession = true ↔
    (∃ id, o.labels.get? rules.sessionLabel = some id ∧ id ≠ "") ∧
      o.labels.get? rules.managedLabel ≠ some "false" := by
  simp only [Observed.inSession, observationOf, podOf, Bool.and_eq_true, bne_iff_ne, ne_eq]
  cases o.labels.get? rules.sessionLabel <;> simp

theorem facts_updated (schema : Schema) (rules : Rules) (old new : Object) :
    (InSession schema rules new →
      facts schema rules (.updated old new) = (observationOf rules new).facts) ∧
      (¬ InSession schema rules new → facts schema rules (.updated old new) = []) := by
  simp only [facts, observed?_eq]
  constructor
  · rintro ⟨hreads, hnamed, hsession, hmanaged⟩
    rw [if_pos ⟨hreads, hnamed⟩]
    exact if_pos (inSession_observationOf.2 ⟨hsession, hmanaged⟩)
  · intro hout
    by_cases hread : schema.pod new = true ∧ new.metadata.name.isSome
    · rw [if_pos hread]
      refine if_neg fun hin => hout ?_
      obtain ⟨hsession, hmanaged⟩ := inSession_observationOf.1 hin
      exact ⟨hread.1, hread.2, hsession, hmanaged⟩
    · rw [if_neg hread]

theorem isTrue_observationOf (type : String) :
    (observationOf rules o).isTrue type = true ↔ HasCondition o type := by
  simp only [Observed.isTrue, observationOf, List.contains_iff_mem, List.mem_map, Prod.mk.injEq,
    HasCondition]

theorem isReady_observationOf :
    (observationOf rules o).isReady = true ↔ HasReadyConditions o := by
  simp only [Observed.isReady, Observed.readyConditions, List.all_cons, List.all_nil, Bool.and_true,
    Bool.and_eq_true, isTrue_observationOf, HasReadyConditions]

theorem crashed_observationOf :
    (observationOf rules o).crashed = true ↔ HasTerminatedContainer o := any_hasTerminated_iff o

theorem Observed.runningFacts_eq (o : Observed) :
    o.runningFacts =
      (if o.isReady = true ∧ o.deleting = false then [.pod .ready o.pod] else []) ++
        if (o.isReady = true ∧ o.deleting = true) ∨ o.crashed = true then
          [.pod .delete o.pod.identity] else [] := by
  unfold runningFacts
  cases o.isReady <;> cases o.deleting <;> cases o.crashed <;> rfl

theorem Observed.facts_of_other {o : Observed}
    (h : o.phase ∉ ["Failed", "Succeeded", "Unknown", "Pending", "Running"]) : o.facts = [] := by
  unfold facts
  split <;> simp_all

theorem updated_facts (schema : Schema) (rules : Rules) (old new : Object) :
    Updated schema rules new (facts schema rules (.updated old new)) where
  outside := (facts_updated schema rules old new).2
  ended hin hphase := by
    rw [(facts_updated schema rules old new).1 hin]
    have hobserved : (observationOf rules new).phase = phaseOf new := rfl
    simp only [List.mem_cons, List.not_mem_nil, or_false] at hphase
    rcases hphase with hphase | hphase | hphase <;>
      simp only [Observed.facts, hobserved, hphase] <;> rfl
  pending hin hphase := by
    rw [(facts_updated schema rules old new).1 hin]
    have hobserved : (observationOf rules new).phase = "Pending" := hphase
    simp only [Observed.facts, hobserved, isTrue_observationOf]
    rfl
  running hin hphase := by
    rw [(facts_updated schema rules old new).1 hin]
    have hobserved : (observationOf rules new).phase = "Running" := hphase
    simp only [Observed.facts, hobserved, Observed.runningFacts_eq, isReady_observationOf,
      crashed_observationOf]
    rfl
  other hphase := by
    by_cases hin : InSession schema rules new
    · rw [(facts_updated schema rules old new).1 hin]
      exact Observed.facts_of_other hphase
    · exact (facts_updated schema rules old new).2 hin

/-- A pod is found ready once at most, and deleted once at most and after that. -/
theorem Updated.once {fs : List Fact} (h : Updated schema rules o fs) :
    fs.Sublist [.pod .ready (podOf rules o), .pod .delete (namedPodOf rules o)] ∨
      fs = [.pod .recordSchedule (namedPodOf rules o)] := by
  by_cases hin : InSession schema rules o
  · by_cases hphase : phaseOf o ∈ ["Failed", "Succeeded", "Unknown", "Pending", "Running"]
    · simp only [List.mem_cons, List.not_mem_nil, or_false] at hphase
      have hended : phaseOf o ∈ ["Failed", "Succeeded", "Unknown"] →
          fs.Sublist [.pod .ready (podOf rules o), .pod .delete (namedPodOf rules o)] := by
        intro he
        rw [h.ended hin he]
        exact List.sublist_cons_self _ _
      rcases hphase with hphase | hphase | hphase | hphase | hphase
      · exact .inl (hended (by simp [hphase]))
      · exact .inl (hended (by simp [hphase]))
      · exact .inl (hended (by simp [hphase]))
      · rw [h.pending hin hphase]
        split
        · exact .inr rfl
        · exact .inl (List.nil_sublist _)
      · refine .inl ?_
        rw [h.running hin hphase]
        have hreadiness : (if HasReadyConditions o ∧ o.metadata.deleting = false then
            [Fact.pod .ready (podOf rules o)] else []).Sublist [.pod .ready (podOf rules o)] := by
          split <;> simp
        refine hreadiness.append ?_
        split <;> simp
    · exact .inl (h.other hphase ▸ List.nil_sublist _)
  · exact .inl (h.outside hin ▸ List.nil_sublist _)

end Cluster.PodWatch

/-- To an onlooker in front of any other subscribers, and whatever events it fails on, an update of
a pod shows just the facts that the new object comes to, each with no metadata: readiness with all
that is known of the pod, deletion and scheduling with its name, namespace and session. -/
theorem pod_updates_shown (p : Pipeline) (hp : ∀ s ∈ p.subscriptions, s.handler.IsOther)
    (failing : List String) (old new : Object) (w : World) (ω : Weather) :
    ∃ v ω' ns fs,
      ((p.lookedAt failing).on .pods (.updated old new)).play ⟨w, ω⟩ = (⟨v, ω'⟩, some ()) ∧
      v.notes = w.notes ++ ns ∧
      ns.filterMap Note.shown? = fs.map (fun f => (f, ∅)) ∧
      PodWatch.Updated p.schema p.rules new fs ∧
      (fs.Sublist [.pod .ready (PodWatch.podOf p.rules new),
          .pod .delete (PodWatch.namedPodOf p.rules new)] ∨
        fs = [.pod .recordSchedule (PodWatch.namedPodOf p.rules new)]) := by
  let fs := PodWatch.facts p.schema p.rules (.updated old new)
  have hupdated : PodWatch.Updated p.schema p.rules new fs :=
    PodWatch.updated_facts p.schema p.rules old new
  have hpods : ∀ f ∈ fs, ∃ change pod, f = .pod change pod := by
    intro f hf
    rcases hupdated.once with hsub | hone
    · have hmem := hsub.subset hf
      simp only [List.mem_cons, List.not_mem_nil, or_false] at hmem
      rcases hmem with rfl | rfl <;> exact ⟨_, _, rfl⟩
    · rw [hone, List.mem_singleton] at hf
      exact ⟨_, _, hf⟩
  have hoffers : ((p.lookedAt failing).on .pods (.updated old new)).Offers
      (fs.map fun f => (f, ∅)) := Pipeline.announceAll_offers hp hpods
  obtain ⟨u, hu⟩ := Option.isSome_iff_exists.1 (hoffers.lasting.ends ⟨w, ω⟩)
  obtain ⟨ns, hns, hshown⟩ := hoffers.shows.play (Prod.ext rfl hu)
  exact ⟨_, _, ns, fs, Prod.ext rfl hu, hns, hshown, hupdated, hupdated.once⟩

/-- A ready pod of which a container has terminated, with a condition that is listed twice. -/
def Sample.crashed : Object :=
  { metadata :=
      { name := some "p1", ns := some "ns", labels := some (.ofList [("sessionId", "s1")]) }
    content :=
      [("spec", .obj [("nodeName", .str "n1")]),
        ("status", .obj
          [("phase", .str "Running"), ("podIP", .str "10.0.0.1"),
            ("conditions", .arr (.obj [("type", .str "Ready"), ("status", .str "False")] ::
              PodWatch.Observed.readyConditions.map condition)),
            ("containerStatuses", .arr [.obj [("state", .obj
              [("terminated", .obj [("exitCode", .int 1)])])]])])] }

/-- The subscriber that fails on the readiness is shown the deletion nevertheless. -/
theorem pod_updates_shown_sample :
    let p := Settings.pipeline {} 2 Handler.wired
    (∀ s ∈ p.subscriptions, s.handler.IsOther) ∧
      ∃ v ω' ns, ((p.lookedAt ["PodReadyEvent"]).on .pods
          (.updated Sample.pending Sample.crashed)).play ⟨Sample.world, Sample.calm 1000⟩ =
            (⟨v, ω'⟩, some ()) ∧
        v.notes = ns ∧
        ns.filterMap Note.shown? = [(.pod .ready ⟨"p1", "ns", "s1", "n1", "10.0.0.1"⟩, ∅),
          (.pod .delete ⟨"p1", "ns", "s1", "", ""⟩, ∅)] := by
  intro p
  have hp : ∀ s ∈ p.subscriptions, s.handler.IsOther := by
    intro s hs
    have hwired : s = ⟨Handler.nodeEvents, .nodes⟩ ∨ s = ⟨Handler.podEvents, .pods⟩ := by
      simpa [p, Settings.pipeline, Handler.wired] using hs
    rcases hwired with rfl | rfl <;> exact fun failing => nofun
  have hin : PodWatch.InSession p.schema p.rules Sample.crashed :=
    ⟨by decide +kernel, rfl, ⟨"s1", by decide +kernel, by decide⟩, by decide +kernel⟩
  obtain ⟨v, ω', ns, fs, hplay, hns, hshown, hupdated, -⟩ := pod_updates_shown p hp
    ["PodReadyEvent"] Sample.pending Sample.crashed Sample.world (Sample.calm 1000)
  have hfs : fs = [.pod .ready ⟨"p1", "ns", "s1", "n1", "10.0.0.1"⟩,
      .pod .delete ⟨"p1", "ns", "s1", "", ""⟩] :=
    (hupdated.running hin (by decide +kernel)).trans (by decide +kernel)
  exact ⟨hp, v, ω', ns, hplay, hns, by rw [hshown, hfs]; rfl⟩

end SessionWatch
