import SessionWatch.Proofs.Deeds
import SessionWatch.Proofs.Facts
import SessionWatch.Proofs.Fence

/-!
What a callback about a node has published. An observed node gives one batch of events, which goes
by the callback and the object alone, and is delivered up to the first event that a subscriber fails
on; an object that is no observed node gives nothing.
-/

namespace SessionWatch

open Cluster

/-! ### Facts of a callback -/

namespace Cluster.NodeWatch

/-- The version of a driver, if all its three labels are there, whatever they hold. -/
def version? (labels : Labels) : Option String :=
  match labels.get? majorLabel, labels.get? minorLabel, labels.get? revisionLabel with
  | some major, some minor, some revision => some (major ++ "." ++ minor ++ "." ++ revision)
  | _, _, _ => none

/-- The facts of a callback about a node with this name and these labels. -/
def factsOf (c : Callback) (name : String) (labels : Labels) : List Fact :=
  let n : Node := ⟨name, (version? labels).getD "", labels⟩
  match c, version? labels with
  | .added _, _ => [.node .add n, .node .updateLabels n, .node .recordProvision n]
  | .updated _ _, some _ => [.node .update n, .node .updateLabels n]
  | .updated _ _, none => [.node .update n]
  | .deleted _, _ => [.node .delete ⟨name, "", labels⟩]
  | .failed _, _ => []

variable {schema : Schema} {observee : Labels} {o : Object} {name : String}

theorem toOption_driverVersion (labels : Labels) :
    (driverVersion labels).toOption = version? labels := by
  unfold driverVersion part version?
  cases labels.get? majorLabel with
  | none => rfl
  | some major =>
    cases labels.get? minorLabel with
    | none => rfl
    | some minor => cases labels.get? revisionLabel <;> rfl

theorem observed?_of_qualifies (h : Qualifies schema observee o name) :
    observed? schema observee o = some ⟨name, "", o.labels⟩ :=
  observed?_eq_some_iff.2 ⟨name, h, rfl⟩

theorem observed?_of_not_qualifies (h : ∀ name, ¬ Qualifies schema observee o name) :
    observed? schema observee o = none := by
  refine Option.eq_none_iff_forall_ne_some.2 fun n hn => ?_
  obtain ⟨name, hqualifies, -⟩ := observed?_eq_some_iff.1 hn
  exact h name hqualifies

theorem batch?_of_qualifies {c : Callback} (hc : c.object? = some o)
    (h : Qualifies schema observee o name) :
    batch? schema observee c = some ⟨name, factsOf c name o.labels⟩ := by
  have hobserved := observed?_of_qualifies h
  have hversion := toOption_driverVersion o.labels
  cases c with
  | added o' =>
    cases hc
    rw [batch?, hobserved, Option.map_some, addition, factsOf, hversion]
  | updated old o' =>
    cases hc
    simp only [batch?, hobserved, Option.map_some, update, factsOf, ← hversion]
    cases driverVersion o.labels <;> rfl
  | deleted o' =>
    cases hc
    rw [batch?, hobserved]
    rfl
  | failed message => cases hc

theorem batch?_of_not_qualifies {c : Callback} (hc : c.object? = some o)
    (h : ∀ name, ¬ Qualifies schema observee o name) : batch? schema observee c = none := by
  have hobserved := observed?_of_not_qualifies h
  cases c with
  | failed message => rfl
  | _ =>
    cases hc
    rw [batch?, hobserved]
    rfl

end Cluster.NodeWatch

/-! ### Delivery -/

def Handling.pair (h : Handling) : Handler × Event := (h.handler, h.event)

/-- What a delivery reports of a handling that it came to its end with. -/
def Handling.reported (h : Handling) : Option (Result Unit) :=
  h.outcome.map fun x => x.because (.delivery (.handlerFailed h.event.name))

theorem Handling.reported_ne_ok {h : Handling} (hfailed : ¬ h.Succeeds) :
    h.reported ≠ some (.ok ()) := by
  intro hok
  obtain ⟨x, hx, hbecause⟩ := Option.map_eq_some_iff.1 hok
  cases x with
  | ok u => exact hfailed hx
  | error r => cases hbecause

/-- The delivery of one event that came to a halt: all handlers before the one that failed had done
their work, and no other was handed the event. -/
structure Halt (e : Event) (handlers : List Handler) (hs : List Handling) where
  before : List Handler
  after : List Handler
  done : List Handling
  failed : Handling
  event_eq : failed.event = e
  handlers_eq : handlers = before ++ failed.handler :: after
  handlings_eq : hs = done ++ [failed]
  reached : done.map (·.pair) = before.map (·, e)
  succeeded : ∀ d ∈ done, d.Succeeds
  not_succeeds : ¬ failed.Succeeds

/-- How one event is handed over: to all its handlers, or up to a halt, which is then reported. -/
inductive HandedOver (e : Event) (handlers : List Handler) (hs : List Handling)
    (x : Option (Result Unit)) : Prop
  | whole : hs.map (·.pair) = handlers.map (·, e) → (∀ h ∈ hs, h.Succeeds) →
      x = some (.ok ()) → HandedOver e handlers hs x
  | halted (t : Halt e handlers hs) : x = t.failed.reported → HandedOver e handlers hs x

theorem HandedOver.of_failed {e : Event} {g : Handling} (he : g.event = e) (hg : ¬ g.Succeeds)
    (handlers : List Handler) : HandedOver e (g.handler :: handlers) [g] g.reported :=
  .halted
    { before := []
      after := handlers
      done := []
      failed := g
      event_eq := he
      handlers_eq := rfl
      handlings_eq := rfl
      reached := rfl
      succeeded := List.forall_mem_nil _
      not_succeeds := hg } rfl

theorem HandedOver.cons {e : Event} {handlers : List Handler} {g : Handling} {hs : List Handling}
    {x : Option (Result Unit)} (he : g.event = e) (hg : g.Succeeds)
    (h : HandedOver e handlers hs x) : HandedOver e (g.handler :: handlers) (g :: hs) x := by
  have hpair : g.pair = (g.handler, e) := by rw [Handling.pair, he]
  cases h with
  | whole hpairs hok hx =>
    refine .whole (by rw [List.map_cons, hpairs, hpair, List.map_cons]) ?_ hx
    exact List.forall_mem_cons.2 ⟨hg, hok⟩
  | halted t hx =>
    exact .halted
      { t with
        before := g.handler :: t.before
        done := g :: t.done
        handlers_eq := congrArg (g.handler :: ·) t.handlers_eq
        handlings_eq := congrArg (g :: ·) t.handlings_eq
        reached := by rw [List.map_cons, t.reached, hpair, List.map_cons]
        succeeded := List.forall_mem_cons.2 ⟨hg, t.succeeded⟩ } hx

namespace Pipeline

/-- Those who subscribed to an event: with no names at all, or with its name among them. -/
def hearers (p : Pipeline) (e : Event) : List Handler :=
  (p.subscriptions.filter fun s => s.names = [] ∨ e.name ∈ s.names).map (·.handler)

/-- Who is to handle what, in order. -/
def reach (p : Pipeline) (es : List Event) : List (Handler × Event) :=
  es.flatMap fun e => (p.hearers e).map (·, e)

/-- A publication that came to a stop. The events before the one that a subscriber failed on had
reached everyone that they are for, and those after it reached no one. -/
structure Stop (p : Pipeline) (es : List Event) (hs : List Handling) where
  earlier : List Event
  event : Event
  later : List Event
  done : List Handling
  last : List Handling
  events_eq : es = earlier ++ event :: later
  handlings_eq : hs = done ++ last
  reached : done.map (·.pair) = p.reach earlier
  succeeded : ∀ d ∈ done, d.Succeeds
  halt : Halt event (p.hearers event) last

/-- How events are delivered: all to everyone that they are for, or up to a stop, which is what the
publication reports. -/
inductive Delivers (p : Pipeline) (es : List Event) (hs : List Handling)
    (x : Option (Result Unit)) : Prop
  | whole : hs.map (·.pair) = p.reach es → (∀ h ∈ hs, h.Succeeds) → x = some (.ok ()) →
      Delivers p es hs x
  | stopped (s : Stop p es hs) : x = s.halt.failed.reported → Delivers p es hs x

abbrev recordDelivery (p : Pipeline) (e : Event) (handlers : List Handler) :
    Recorded (Result Unit) :=
  Dispatch.deliver (fun h e => Recorded.handling h e (p.workplace.handle h e)) e handlers

abbrev recordPublication (p : Pipeline) (es : List Event) : Recorded (Result Unit) :=
  Dispatch.publish (pure p.subscriptions)
    (fun h e => Recorded.handling h e (p.workplace.handle h e)) es

variable {p : Pipeline}

theorem handedOver_recordDelivery (e : Event) (handlers : List Handler) (c : Scene) :
    HandedOver e handlers (p.recordDelivery e handlers c).1
      (p.recordDelivery e handlers c).2.2 := by
  induction handlers generalizing c with
  | nil => exact .whole rfl (List.forall_mem_nil _) rfl
  | cons h handlers ih =>
    -- The process may die in the first handling, or it fails, or the others follow.
    rcases hplay : (p.workplace.handle h e).play c with ⟨c', _ | (r | u)⟩
    · rw [recordDelivery, Dispatch.deliver, Recorded.bind_of_none (Recorded.handling_apply hplay)]
      exact .of_failed (g := ⟨h, e, c.world, c'.world, none⟩) rfl (fun hok => by cases hok) handlers
    · rw [recordDelivery, Dispatch.deliver, Recorded.bind_of_some (Recorded.handling_apply hplay)]
      exact .of_failed (g := ⟨h, e, c.world, c'.world, some (.error r)⟩) rfl
        (fun hok => by cases hok) handlers
    · rw [recordDelivery, Dispatch.deliver, Recorded.bind_of_some (Recorded.handling_apply hplay)]
      exact (ih c').cons (g := ⟨h, e, c.world, c'.world, some (.ok ())⟩) rfl rfl

theorem recordPublication_of_ok {e : Event} {c c' : Scene} {ds : List Handling} (es : List Event)
    (h : p.recordDelivery e (p.hearers e) c =
      (ds, c', some (.ok ()))) :
    p.recordPublication (e :: es) c =
      (ds ++ (p.recordPublication es c').1, (p.recordPublication es c').2) := by
  rw [hearers, ← Subscription.handlersFor_eq] at h
  rw [recordPublication, Dispatch.publish, Recorded.pure_bind]
  exact Recorded.bind_of_some h

theorem recordPublication_of_not_ok {e : Event} {c c' : Scene} {ds : List Handling}
    {x : Option (Result Unit)} (es : List Event)
    (h : p.recordDelivery e (p.hearers e) c = (ds, c', x))
    (hx : x ≠ some (.ok ())) : p.recordPublication (e :: es) c = (ds, c', x) := by
  rw [hearers, ← Subscription.handlersFor_eq] at h
  rw [recordPublication, Dispatch.publish, Recorded.pure_bind]
  match x, hx with
  | none, _ => exact Recorded.bind_of_none h
  | some (.error r), _ =>
    have hstopped := congrArg (·, c', some (.error r : Result Unit)) (List.append_nil ds)
    exact (Recorded.bind_of_some h).trans hstopped
  | some (.ok ()), hx => exact absurd rfl hx

theorem Delivers.cons {e : Event} {es : List Event} {ds hs : List Handling}
    {x : Option (Result Unit)}
    (hpairs : ds.map (·.pair) = (p.hearers e).map (·, e))
    (hok : ∀ d ∈ ds, d.Succeeds) (h : Delivers p es hs x) : Delivers p (e :: es) (ds ++ hs) x := by
  have hreach : ∀ es, p.reach (e :: es) = ds.map (·.pair) ++ p.reach es := fun es => by
    rw [hpairs]
    rfl
  cases h with
  | whole hwhole hsucceed hx =>
    refine .whole (by rw [List.map_append, hwhole, hreach]) ?_ hx
    exact List.forall_mem_append.2 ⟨hok, hsucceed⟩
  | stopped s hx =>
    exact .stopped
      { s with
        earlier := e :: s.earlier
        done := ds ++ s.done
        events_eq := congrArg (e :: ·) s.events_eq
        handlings_eq := (congrArg (ds ++ ·) s.handlings_eq).trans (List.append_assoc ..).symm
        reached := by rw [List.map_append, s.reached, hreach]
        succeeded := List.forall_mem_append.2 ⟨hok, s.succeeded⟩ } hx

/-- Every publication delivers its events, whole or up to a stop. -/
theorem delivers_recordPublication (es : List Event) (c : Scene) :
    Delivers p es (p.recordPublication es c).1 (p.recordPublication es c).2.2 := by
  induction es generalizing c with
  | nil => exact .whole rfl (List.forall_mem_nil _) rfl
  | cons e es ih =>
    rcases hr : p.recordDelivery e (p.hearers e) c with ⟨ds, c', x⟩
    have hfirst : HandedOver e (p.hearers e) ds x := by
      have hall := handedOver_recordDelivery (p := p) e (p.hearers e) c
      rwa [hr] at hall
    cases hfirst with
    | whole hpairs hok hx =>
      subst hx
      rw [recordPublication_of_ok es hr]
      exact (ih c').cons hpairs hok
    | halted t hx =>
      have hstops : x ≠ some (.ok ()) := by
        rw [hx]
        exact Handling.reported_ne_ok t.not_succeeds
      rw [recordPublication_of_not_ok es hr hstops]
      exact .stopped
        { earlier := []
          event := e
          later := es
          done := []
          last := ds
          events_eq := rfl
          handlings_eq := rfl
          reached := rfl
          succeeded := List.forall_mem_nil _
          halt := t } hx

/-! ### The events of a batch -/

/-- Staged events are of these facts in order, each with the metadata of its aggregate and under the
next stamp, and nothing but the stamps is taken for them. -/
structure Staged (a : Aggregate) (fs : List Fact) (now start : Scene) (es : List Event) : Prop where
  facts : es.map (·.fact) = fs
  metadata : ∀ e ∈ es, e.metadata = a.metadata
  serials : es.map (·.stamp.serial) = List.range' now.world.serial es.length
  untouched : start.world =
    { now.world with clock := start.world.clock, serial := now.world.serial + es.length }

theorem stage_play (a : Aggregate) (fs : List Fact) (c : Scene) :
    ∃ es start, (stage a fs).play c = (start, some { a with staged := a.staged ++ es }) ∧
      (stage a fs).deeds c = es.map (fun e => ⟨.stamp, e.stamp⟩) ∧ Staged a fs c start es := by
  induction fs generalizing a c with
  | nil =>
    refine ⟨[], c, ?_, rfl, rfl, nofun, rfl, rfl⟩
    rw [List.append_nil]
    rfl
  | cons f fs ih =>
    let stamp : Stamp := ⟨c.world.serial, (c.weather 0).clock.wall⟩
    obtain ⟨es, start, hplay, hdeeds, hstaged⟩ := ih (a.add stamp f) (c.perform .stamp).1
    have hstamp : Plan.stamp.play c = ((c.perform .stamp).1, some stamp) := rfl
    have hserial : c.world.serial + 1 + es.length = c.world.serial + (es.length + 1) := by omega
    refine ⟨⟨stamp, f, a.metadata⟩ :: es, start, ?_, ?_, ?_⟩
    · rw [stage, Plan.bind_eq, Plan.play_bind_of_some hstamp, hplay]
      simp [Aggregate.add]
    · rw [stage, Plan.bind_eq, Plan.deeds_bind_of_some hstamp, hdeeds]
      rfl
    · refine ⟨congrArg (f :: ·) hstaged.facts, ?_, ?_, ?_⟩
      · rintro e (_ | ⟨_, he⟩)
        · rfl
        · exact hstaged.metadata e he
      · exact congrArg (c.world.serial :: ·) hstaged.serials
      · refine hstaged.untouched.trans ?_
        rw [List.length_cons, ← hserial]
        rfl

variable (p)

/-- A callback publishes its batch at once: the events are staged and then published, and that is
all that it does. -/
structure PublishesBatch (c : Callback) (name : String) (fs : List Fact) (now start : Scene)
    (es : List Event) : Prop where
  staged : Staged ⟨name, "nodes.NodeAggregate", []⟩ fs now start es
  metadata : ∀ e ∈ es, e.metadata =
    .ofList [("aggregate-name", "nodes.NodeAggregate"), ("aggregate-id", name)]
  steps : (p.on .nodes c).deeds now =
    es.map (fun e => ⟨.stamp, e.stamp⟩) ++ (p.publish es).deeds start
  ends : (p.on .nodes c).play now =
    (((p.publish es).play start).1, ((p.publish es).play start).2.map fun _ => ())
  delivers : Delivers p es (p.handlings now.world ⟨.nodes, c, now.weather⟩)
    ((p.publish es).play start).2

variable {p}

theorem recordEach_single {x : Publication} {now start : Scene} {es : List Event}
    (h : x.events.play now = (start, some es)) :
    (p.recordEach [x] now).1 = (p.recordPublication es start).1 := by
  have haside : Recorded.aside x.events now = ([], start, some es) := by rw [Recorded.aside, h]
  rw [recordEach, Recorded.bind_of_some haside]
  show ((p.recordPublication es >>= fun _ => pure ()) start).1 = _
  rcases hend : p.recordPublication es start with ⟨hs, c, _ | y⟩
  · rw [Recorded.bind_of_none hend]
  · rw [Recorded.bind_of_some hend]
    exact List.append_nil hs

theorem recordPublication_play (es : List Event) (c : Scene) :
    (p.recordPublication es c).2 = (p.publish es).play c := by
  have hfollows : Follows p (es.map (·.fact)) (p.recordPublication es) (p.publish es) :=
    Follows.publish fun e he => List.mem_map_of_mem he
  exact hfollows.plays c

theorem publishesBatch_of_batch? {c : Callback} {name : String} {fs : List Fact}
    (h : NodeWatch.batch? p.schema p.observee c = some ⟨name, fs⟩) (now : Scene) :
    ∃ start es, p.PublishesBatch c name fs now start es := by
  obtain ⟨es, start, hplay, hdeeds, hstaged⟩ := stage_play ⟨name, nodeAggregate, []⟩ fs now
  rw [List.nil_append] at hplay
  have hon : p.on .nodes c = (stage ⟨name, nodeAggregate, []⟩ fs).bind fun a =>
      (p.publish a.staged).bind fun _ => .done () := by
    rw [on_eq, publications_of_batch h]
    exact Plan.bind_assoc _ _ _
  have hevents : (Publication.batch ⟨name, fs⟩).events.play now = (start, some es) :=
    Plan.play_bind_of_some hplay _
  refine ⟨start, es, hstaged, hstaged.metadata, ?_, ?_, ?_⟩
  · rw [hon, Plan.deeds_bind_of_some hplay, hdeeds, Plan.deeds_bind_done]
  · rw [hon, Plan.play_bind_of_some hplay, Plan.play_bind_done]
  · have hdelivers := delivers_recordPublication (p := p) es start
    rw [recordPublication_play] at hdelivers
    rw [handlings, record, publications_of_batch h, recordEach_single hevents]
    exact hdelivers

end Pipeline

/-- A callback about an object that is no observed node does nothing. One about an observed node
publishes one batch, whose facts go by the callback, the name and the labels alone, and which is
delivered whole or up to the first event that a subscriber fails on. Whatever callbacks came before
and however they went, this is the same. -/
theorem node_callbacks_publish_batches (p : Pipeline) {c : Callback} {o : Object}
    (hc : c.object? = some o) :
    ((∀ name, ¬ NodeWatch.Qualifies p.schema p.observee o name) → p.on .nodes c = .done ()) ∧
      ∀ name, NodeWatch.Qualifies p.schema p.observee o name →
        ∀ (w : World) (earlier : List Occasion) (ω : Weather), ∃ start es,
          p.PublishesBatch c name (NodeWatch.factsOf c name o.labels)
            ⟨p.meetAll w earlier, ω⟩ start es := by
  refine ⟨fun hno => ?_, fun name h w earlier ω => ?_⟩
  · have hnone := NodeWatch.batch?_of_not_qualifies hc hno
    cases c with
    | failed message => cases hc
    | _ => simp only [Pipeline.on, Pipeline.onNode, hnone, Plan.pure_eq]
  · exact Pipeline.publishesBatch_of_batch? (NodeWatch.batch?_of_qualifies hc h) _

namespace Sample

/-- A node with a label that is looked for and those of a driver, one of them empty. -/
def labelledNode : Object :=
  { metadata :=
      { name := some "n1"
        labels := some (.ofList [("gpu", "yes"), (NodeWatch.majorLabel, "535"),
          (NodeWatch.minorLabel, ""), (NodeWatch.revisionLabel, "03")]) } }

/-- Nodes of that label are observed, and an onlooker fails on updates of labels. -/
def observingPipeline : Pipeline :=
  { Settings.pipeline {} 2 [⟨[], .offered ["NodeUpdateLabelsCacheEvent"]⟩,
      ⟨Handler.nodeEvents, .nodes⟩] with observee := .ofList [("gpu", "yes")] }

end Sample

/-- A batch is stopped at its second event; the next one is published all the same. -/
theorem node_callbacks_publish_batches_sample :
    let o := Sample.labelledNode
    let n : Node := ⟨"n1", "535..03", o.labels⟩
    let added : Occasion := ⟨.nodes, .added o, Sample.calm 1000⟩
    Callback.object? (.updated Sample.node o) = some o ∧
      NodeWatch.Qualifies .v1 Sample.observingPipeline.observee o "n1" ∧
      (Sample.observingPipeline.handlings Sample.world added).map
          (fun h => (h.handler, h.event.fact)) =
        [(.offered ["NodeUpdateLabelsCacheEvent"], .node .add n), (.nodes, .node .add n),
          (.offered ["NodeUpdateLabelsCacheEvent"], .node .updateLabels n)] ∧
      (∃ start es, Sample.observingPipeline.PublishesBatch (.updated Sample.node o) "n1"
        [.node .update n, .node .updateLabels n]
        ⟨Sample.observingPipeline.meetAll Sample.world [added], Sample.calm 2000⟩ start es) ∧
      Sample.observingPipeline.on .nodes (.added Sample.node) = .done () := by
  intro o n added
  have hqualifies : NodeWatch.Qualifies .v1 Sample.observingPipeline.observee o "n1" :=
    ⟨by decide +kernel, rfl, NodeWatch.isObserved_iff.1 (by decide +kernel)⟩
  have hno : ∀ name,
      ¬ NodeWatch.Qualifies .v1 Sample.observingPipeline.observee Sample.node name := by
    intro name h
    have hlabel := h.labelled "gpu" "yes" (by decide +kernel)
    cases hlabel
  have hfacts : NodeWatch.factsOf (.updated Sample.node o) "n1" o.labels =
      [.node .update n, .node .updateLabels n] := by decide +kernel
  obtain ⟨-, hbatch⟩ := node_callbacks_publish_batches Sample.observingPipeline
    (c := .updated Sample.node o) rfl
  obtain ⟨hnothing, -⟩ := node_callbacks_publish_batches Sample.observingPipeline
    (c := .added Sample.node) rfl
  refine ⟨rfl, hqualifies, by decide +kernel, ?_, hnothing hno⟩
  rw [← hfacts]
  exact hbatch "n1" hqualifies Sample.world [added] (Sample.calm 2000)

end SessionWatch
