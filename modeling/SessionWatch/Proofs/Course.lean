import SessionWatch.Pipeline
import SessionWatch.Proofs.Effect

/-!
Runs of the pipeline and the handlings in them. A run meets one callback after the other, each in
its own weather; its history lists every handling of an event with the worlds before and after it.
Writing the history down changes nothing, and between two handlings nothing happens that matters
to a session.
-/

namespace SessionWatch

/-- A handling of an event: where it started, where it ended, and how. -/
structure Handling where
  handler : Handler
  event : Event
  before : World
  after : World
  outcome : Option (Result Unit)

def Recorded (α : Type) := Scene → List Handling × Scene × Option α

namespace Recorded

variable {α β : Type}

instance : Monad Recorded where
  pure a := fun c => ([], c, some a)
  bind x f := fun c =>
    match x c with
    | (hs, c, some a) => (hs ++ (f a c).1, (f a c).2)
    | (hs, c, none) => (hs, c, none)

/-- A plan in which no event is handled. -/
def aside (q : Plan α) : Recorded α := fun c => ([], q.play c)

def handling (h : Handler) (e : Event) (q : Plan (Result Unit)) : Recorded (Result Unit) :=
  fun c => ([⟨h, e, c.world, (q.play c).1.world, (q.play c).2⟩], q.play c)

variable {x : Recorded α} {f : α → Recorded β} {c c' : Scene} {hs : List Handling}

theorem pure_bind (a : α) (f : α → Recorded β) (c : Scene) :
    ((pure a : Recorded α) >>= f) c = f a c := rfl

theorem bind_of_some {a : α} (h : x c = (hs, c', some a)) :
    (x >>= f) c = (hs ++ (f a c').1, (f a c').2) := by
  simp only [Bind.bind, h]

theorem bind_of_none (h : x c = (hs, c', none)) : (x >>= f) c = (hs, c', none) := by
  simp only [Bind.bind, h]

theorem handling_apply {h : Handler} {e : Event} {q : Plan (Result Unit)}
    {y : Option (Result Unit)} (hq : q.play c = (c', y)) :
    handling h e q c = ([⟨h, e, c.world, c'.world, y⟩], c', y) := by
  simp only [handling, hq]

end Recorded

open Cluster

/-- What is published at once: the facts of a batch, or one fact that belongs to no aggregate. -/
inductive Publication where
  | batch (b : NodeWatch.Batch)
  | lone (f : Fact)

namespace Publication

def facts : Publication → List Fact
  | batch b => b.facts
  | lone f => [f]

def events : Publication → Plan (List Event)
  | batch b => do
    let a ← Pipeline.stage ⟨b.node, Pipeline.nodeAggregate, []⟩ b.facts
    pure a.take.1
  | lone f => do
    let s ← Plan.stamp
    pure [⟨s, f, ∅⟩]

end Publication

namespace Pipeline

variable (p : Pipeline)

def publications : Resource → Callback → List Publication
  | .nodes, .failed message => [.lone (.nodeWatchFailed message)]
  | .nodes, c => ((NodeWatch.batch? p.schema p.observee c).map .batch).toList
  | .pods, c => (PodWatch.facts p.schema p.rules c).map .lone

def facts (r : Resource) (c : Callback) : List Fact := (p.publications r c).flatMap (·.facts)

def publishEach : List Publication → Plan Unit
  | [] => pure ()
  | x :: xs => do
    let es ← x.events
    let _ ← p.publish es
    publishEach xs

theorem announceAll_eq (fs : List Fact) : p.announceAll fs = p.publishEach (fs.map .lone) := by
  induction fs with
  | nil => rfl
  | cons f fs ih =>
    simp only [announceAll, announce, List.map_cons, publishEach, Publication.events,
      Plan.bind_eq, Plan.pure_eq, Plan.bind_assoc, Plan.bind_done, ih]

theorem on_eq (r : Resource) (c : Callback) : p.on r c = p.publishEach (p.publications r c) := by
  cases r with
  | pods => exact p.announceAll_eq _
  | nodes =>
    cases c with
    | failed message =>
      simp only [on, onNode, announce, publications, publishEach, Publication.events,
        Plan.bind_eq, Plan.pure_eq, Plan.bind_assoc, Plan.bind_done]
    | _ =>
      simp only [on, onNode, publications]
      split
      · next b hb =>
        simp only [hb, Option.map_some, Option.toList_some, publishEach, Publication.events,
          publishBatch, Plan.bind_eq, Plan.pure_eq, Plan.bind_assoc, Plan.bind_done]
      · next hb => simp only [hb, Option.map_none, Option.toList_none, publishEach]

variable {p} in
theorem publications_of_batch {c : Callback} {b : NodeWatch.Batch}
    (hb : NodeWatch.batch? p.schema p.observee c = some b) :
    p.publications .nodes c = [.batch b] := by
  cases c with
  | failed message => cases hb
  | _ => simp [publications, hb]

def recordEach : List Publication → Recorded Unit
  | [] => pure ()
  | x :: xs => do
    let es ← Recorded.aside x.events
    let _ ← Dispatch.publish (pure p.subscriptions)
      (fun h e => Recorded.handling h e (p.workplace.handle h e)) es
    recordEach xs

def record (r : Resource) (c : Callback) : Recorded Unit := p.recordEach (p.publications r c)

end Pipeline

/-- A handling as a pipeline makes it: by a subscriber of the event, in some weather. -/
structure Handling.Genuine (p : Pipeline) (h : Handling) : Prop where
  subscribed : h.handler ∈ Subscription.handlersFor p.subscriptions (Named.name h.event)
  played : ∃ ω, ((p.workplace.handle h.handler h.event).play ⟨h.before, ω⟩).1.world = h.after ∧
    ((p.workplace.handle h.handler h.event).play ⟨h.before, ω⟩).2 = h.outcome

theorem Handling.Genuine.effect {p : Pipeline} {h : Handling} (hg : h.Genuine p)
    (hp : p.subscriptions = Handler.wired) :
    Effect p.workplace.streams h.before h.after h.event.fact h.outcome := by
  obtain ⟨hsub, ω, hafter, houtcome⟩ := hg
  rw [hp, handlersFor_wired, Option.mem_toList] at hsub
  have heffect := handle_ensures p.workplace hsub h.before ω
  rwa [hafter, houtcome] at heffect

/-- From one world to another by handlings, with nothing that matters to a session between. -/
inductive Course (p : Pipeline) : World → List Handling → World → Prop
  | quiet {w v : World} : w.Quiet v → Course p w [] v
  | handled {w v : World} {h : Handling} {hs : List Handling} :
      w.Quiet h.before → h.Genuine p → Course p h.after hs v → Course p w (h :: hs) v

namespace Course

variable {p : Pipeline} {w v u : World} {hs gs : List Handling}

theorem after_quiet (hq : w.Quiet v) (hc : Course p v hs u) : Course p w hs u := by
  cases hc with
  | quiet hq' => exact .quiet (hq.trans hq')
  | handled hq' hg hc => exact .handled (hq.trans hq') hg hc

theorem append (hc : Course p w hs v) (hd : Course p v gs u) : Course p w (hs ++ gs) u := by
  induction hc with
  | quiet hq => exact hd.after_quiet hq
  | handled hq hg _ ih => exact .handled hq hg (ih hd)

theorem cut {h : Handling} (hc : Course p w (hs ++ h :: gs) v) :
    Course p w hs h.before ∧ h.Genuine p ∧ Course p h.after gs v := by
  induction hs generalizing w with
  | nil =>
    cases hc with
    | handled hq hg hc => exact ⟨.quiet hq, hg, hc⟩
  | cons g hs ih =>
    cases hc with
    | handled hq hg hc =>
      obtain ⟨hpre, hrest⟩ := ih hc
      exact ⟨.handled hq hg hpre, hrest⟩

/-- What handlings keep up along with the past, and nothing else disturbs, holds at the end. -/
theorem invariant {I : List Handling → World → Prop}
    (hquiet : ∀ past w v, w.Quiet v → I past w → I past v)
    (hstep : ∀ past h, h.Genuine p → I past h.before → I (past ++ [h]) h.after)
    (hc : Course p w hs v) (past : List Handling) (hw : I past w) : I (past ++ hs) v := by
  induction hc generalizing past with
  | quiet hq => simpa using hquiet past _ _ hq hw
  | handled hq hg _ ih =>
    have hafter := hstep past _ hg (hquiet past _ _ hq hw)
    simpa using ih _ hafter

end Course

/-- Work written down faithfully: it goes as the plan does, its handlings are a course, and they
are of these facts. -/
structure Follows {α : Type} (p : Pipeline) (facts : List Fact) (x : Recorded α) (q : Plan α) :
    Prop where
  plays : ∀ c, (x c).2 = q.play c
  course : ∀ c, Course p c.world (x c).1 (x c).2.1.world
  facts : ∀ c, ∀ h ∈ (x c).1, h.event.fact ∈ facts

namespace Follows

variable {α β : Type} {p : Pipeline} {facts : List Fact}

theorem pure (a : α) : Follows p facts (pure a) (.done a) where
  plays _ := rfl
  course c := .quiet (World.Quiet.refl c.world)
  facts _ := by simp [Pure.pure]

theorem bind_of {x : Recorded α} {q : Plan α} {f : α → Recorded β} {g : α → Plan β}
    {Q : α → Prop} (hx : Follows p facts x q) (hQ : ∀ c a, (x c).2.2 = some a → Q a)
    (hf : ∀ a, Q a → Follows p facts (f a) (g a)) : Follows p facts (x >>= f) (q.bind g) := by
  have hcases : ∀ c, ((x >>= f) c).2 = (q.bind g).play c ∧
      Course p c.world ((x >>= f) c).1 ((x >>= f) c).2.1.world ∧
        ∀ h ∈ ((x >>= f) c).1, h.event.fact ∈ facts := by
    intro c
    have hplays := hx.plays c
    have hcourse := hx.course c
    have hfacts := hx.facts c
    have hQc := hQ c
    rw [Plan.play_bind, ← hplays]
    simp only [Bind.bind]
    rcases hxc : x c with ⟨hs, c', _ | a⟩
    · rw [hxc] at hcourse hfacts
      exact ⟨rfl, hcourse, hfacts⟩
    · rw [hxc] at hcourse hfacts hQc
      have hfa := hf a (hQc a rfl)
      refine ⟨hfa.plays c', hcourse.append (hfa.course c'), fun h hh => ?_⟩
      rcases List.mem_append.1 hh with hh | hh
      · exact hfacts h hh
      · exact hfa.facts c' h hh
  exact ⟨fun c => (hcases c).1, fun c => (hcases c).2.1, fun c => (hcases c).2.2⟩

theorem bind {x : Recorded α} {q : Plan α} {f : α → Recorded β} {g : α → Plan β}
    (hx : Follows p facts x q) (hf : ∀ a, Follows p facts (f a) (g a)) :
    Follows p facts (x >>= f) (q.bind g) :=
  hx.bind_of (fun _ _ _ => trivial) fun a _ => hf a

theorem aside {q : Plan α} (hq : ∀ w, q.Ensures w fun v _ => w.Quiet v) :
    Follows p facts (Recorded.aside q) q where
  plays _ := rfl
  course c := .quiet (hq c.world c.weather)
  facts _ := by simp [Recorded.aside]

theorem handling {h : Handler} {e : Event}
    (hh : h ∈ Subscription.handlersFor p.subscriptions (Named.name e)) (he : e.fact ∈ facts) :
    Follows p facts (Recorded.handling h e (p.workplace.handle h e)) (p.workplace.handle h e) where
  plays _ := rfl
  course c :=
    .handled (World.Quiet.refl c.world) ⟨hh, c.weather, rfl, rfl⟩ (.quiet (World.Quiet.refl _))
  facts _ := by simpa [Recorded.handling] using he

theorem deliver {e : Event} (he : e.fact ∈ facts) {hs : List Handler}
    (hhs : ∀ h ∈ hs, h ∈ Subscription.handlersFor p.subscriptions (Named.name e)) :
    Follows p facts
      (Dispatch.deliver (fun h e => Recorded.handling h e (p.workplace.handle h e)) e hs)
      (Dispatch.deliver p.workplace.handle e hs) := by
  induction hs with
  | nil => exact .pure (Except.ok ())
  | cons h hs ih =>
    refine (Follows.handling (hhs h (by simp)) he).bind fun a => ?_
    cases a with
    | ok u => exact ih fun h' hh' => hhs h' (by simp [hh'])
    | error r => exact .pure _

theorem publish {es : List Event} (hes : ∀ e ∈ es, e.fact ∈ facts) :
    Follows p facts
      (Dispatch.publish (Pure.pure p.subscriptions)
        (fun h e => Recorded.handling h e (p.workplace.handle h e)) es)
      (p.publish es) := by
  induction es with
  | nil => exact .pure (Except.ok ())
  | cons e es ih =>
    refine (Follows.pure p.subscriptions).bind_of
      (Q := fun subs => subs = p.subscriptions) (fun c a ha => by simpa [Pure.pure] using ha.symm) ?_
    rintro subs rfl
    refine (Follows.deliver (hes e (by simp)) fun h hh => hh).bind fun a => ?_
    cases a with
    | ok u => exact ih fun e' he' => hes e' (by simp [he'])
    | error r => exact .pure _

end Follows

namespace Pipeline

theorem stage_ensures (a : Aggregate) (fs : List Fact) (w : World) :
    (stage a fs).Ensures w fun v x =>
      w.Quiet v ∧ ∀ b, x = some b → ∀ e ∈ b.staged, e ∈ a.staged ∨ e.fact ∈ fs := by
  induction fs generalizing a w with
  | nil => exact .done ⟨World.Quiet.refl w, by rintro b ⟨⟩ e he; exact .inl he⟩
  | cons f fs ih =>
    refine (Plan.stamp_ensures w).bind (fun v s hv => ?_) fun v hv => by simp at hv
    refine (ih (a.add s f) v).mono fun u x hu => ⟨hv.1.trans hu.1, fun b hb e he => ?_⟩
    rcases hu.2 b hb e he with hadd | hfs
    · simp only [Aggregate.staged_add, List.mem_append, List.mem_singleton] at hadd
      rcases hadd with ha | rfl
      · exact .inl ha
      · exact .inr (by simp)
    · exact .inr (by simp [hfs])

theorem events_ensures (x : Publication) (w : World) :
    x.events.Ensures w fun v a => w.Quiet v ∧ ∀ es, a = some es → ∀ e ∈ es, e.fact ∈ x.facts := by
  cases x with
  | batch b =>
    refine (stage_ensures _ b.facts w).bind (fun v a hv => ?_) fun v hv => ⟨hv.1, by simp⟩
    refine .done ⟨hv.1, ?_⟩
    rintro es ⟨⟩ e he
    simpa [Publication.facts] using hv.2 a rfl e he
  | lone f =>
    refine (Plan.stamp_ensures w).bind (fun v s hv => ?_) fun v hv => by simp at hv
    refine .done ⟨hv.1, ?_⟩
    rintro es ⟨⟩ e he
    obtain rfl : e = ⟨s, f, ∅⟩ := by simpa using he
    exact List.mem_singleton_self f

variable (p : Pipeline)

theorem follows_publishEach {facts : List Fact} {xs : List Publication}
    (hxs : ∀ x ∈ xs, ∀ f ∈ x.facts, f ∈ facts) :
    Follows p facts (p.recordEach xs) (p.publishEach xs) := by
  induction xs with
  | nil => exact .pure ()
  | cons x xs ih =>
    refine (Follows.aside fun w => (events_ensures x w).mono fun _ _ h => h.1).bind_of
      (Q := fun es => ∀ e ∈ es, e.fact ∈ x.facts)
      (fun c a ha => (events_ensures x c.world c.weather).2 a ha) fun es hes => ?_
    refine (Follows.publish fun e he => hxs x (by simp) _ (hes e he)).bind fun _ => ?_
    exact ih fun y hy => hxs y (by simp [hy])

theorem follows_on (r : Resource) (c : Callback) :
    Follows p (p.facts r c) (p.record r c) (p.on r c) := by
  rw [on_eq]
  exact p.follows_publishEach fun x hx f hf => List.mem_flatMap.2 ⟨x, hx, hf⟩

end Pipeline

structure Occasion where
  resource : Resource
  callback : Callback
  weather : Weather

namespace Pipeline

variable (p : Pipeline)

/-- The world after a callback; if the process died in it, the world is left as it was then. -/
def meet (w : World) (o : Occasion) : World :=
  ((p.on o.resource o.callback).play ⟨w, o.weather⟩).1.world

def meetAll (w : World) (os : List Occasion) : World := os.foldl p.meet w

def handlings (w : World) (o : Occasion) : List Handling :=
  (p.record o.resource o.callback ⟨w, o.weather⟩).1

def history (w : World) : List Occasion → List Handling
  | [] => []
  | o :: os => p.handlings w o ++ history (p.meet w o) os

@[simp] theorem meetAll_nil (w : World) : p.meetAll w [] = w := rfl

@[simp] theorem meetAll_cons (w : World) (o : Occasion) (os : List Occasion) :
    p.meetAll w (o :: os) = p.meetAll (p.meet w o) os := rfl

@[simp] theorem meetAll_append (w : World) (os os' : List Occasion) :
    p.meetAll w (os ++ os') = p.meetAll (p.meetAll w os) os' := List.foldl_append

theorem course_handlings (w : World) (o : Occasion) :
    Course p w (p.handlings w o) (p.meet w o) := by
  have hf := p.follows_on o.resource o.callback
  have hcourse := hf.course ⟨w, o.weather⟩
  rw [hf.plays] at hcourse
  exact hcourse

theorem facts_handlings {w : World} {o : Occasion} {h : Handling} (hh : h ∈ p.handlings w o) :
    h.event.fact ∈ p.facts o.resource o.callback :=
  (p.follows_on o.resource o.callback).facts _ h hh

theorem course_history (w : World) (os : List Occasion) :
    Course p w (p.history w os) (p.meetAll w os) := by
  induction os generalizing w with
  | nil => exact .quiet (World.Quiet.refl w)
  | cons o os ih => exact (p.course_handlings w o).append (ih (p.meet w o))

end Pipeline

/-- A handling in a run, with the occasion that it belongs to. -/
structure Moment (p : Pipeline) (w : World) (os : List Occasion) where
  earlier : List Occasion
  occasion : Occasion
  later : List Occasion
  /-- The handlings of the same occasion that come before. -/
  before : List Handling
  handling : Handling
  after : List Handling
  run_eq : os = earlier ++ occasion :: later
  handlings_eq : p.handlings (p.meetAll w earlier) occasion = before ++ handling :: after

namespace Moment

variable {p : Pipeline} {w : World} {os : List Occasion} (m : Moment p w os)

def past : List Handling := p.history w m.earlier ++ m.before

theorem courses : Course p w m.past m.handling.before ∧ m.handling.Genuine p ∧
    ∃ hs, Course p m.handling.after hs (p.meetAll w os) := by
  have hoccasion := p.course_handlings (p.meetAll w m.earlier) m.occasion
  rw [m.handlings_eq] at hoccasion
  obtain ⟨hbefore, hgenuine, hafter⟩ := hoccasion.cut
  have hlater := hafter.append (p.course_history _ m.later)
  rw [← Pipeline.meetAll_cons, ← Pipeline.meetAll_append, ← m.run_eq] at hlater
  exact ⟨(p.course_history w m.earlier).append hbefore, hgenuine, _, hlater⟩

theorem fact_mem : m.handling.event.fact ∈ p.facts m.occasion.resource m.occasion.callback :=
  p.facts_handlings (w := p.meetAll w m.earlier) (by rw [m.handlings_eq]; simp)

end Moment

/-! A small cluster: one node, and the pod of one session on it. -/

namespace Sample

/-- Clocks that stand still, and two backends that refuse nothing. -/
def calm (wall : Int64) : Weather := fun _ => ⟨⟨wall, 0⟩, fun _ => []⟩

def world : World :=
  { clock := ⟨0, 0⟩, backends := [.memory { name := "first" }, .memory { name := "second" }] }

def node : Object := { metadata := { name := some "n1" } }

def condition (name : String) : Json := .obj [("type", .str name), ("status", .str "True")]

def pod (phase : String) (conditions : List String) : Object :=
  { metadata := { name := some "p1", labels := some (.ofList [("sessionId", "s1")]) }
    content :=
      [("spec", .obj [("nodeName", .str "n1")]),
        ("status", .obj
          [("phase", .str phase), ("podIP", .str "10.0.0.1"),
            ("conditions", .arr (conditions.map condition))])] }

def pending : Object := pod "Pending" ["PodScheduled"]

def ready : Object := pod "Running" PodWatch.Observed.readyConditions

end Sample

end SessionWatch
