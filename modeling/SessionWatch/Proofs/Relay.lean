import SessionWatch.Proofs.Course

/-!
Callbacks without their events. In a wired pipeline an event has one handler at most, and that one
looks at the fact alone; so a callback comes to stamps that nobody reads and facts that are
attended to in turn, up to the first that fails.
-/

namespace SessionWatch

open Cluster

/-- So many stamps that nobody reads, and then the plan. -/
def Plan.afterStamps {α : Type} (p : Plan α) : ℕ → Plan α
  | 0 => p
  | n + 1 => .step .stamp fun _ => p.afterStamps n

namespace Workplace

variable (w : Workplace)

/-- A fact in the hands of the wired handler that it is for. -/
def attend (f : Fact) : Plan (Result Unit) :=
  match f.handler? with
  | some .nodes => w.handleNodes f
  | some .pods => w.handlePods f
  | _ => .done (.ok ())

/-- Facts attended to in turn, up to the first that fails. -/
def relay : List Fact → Plan (Result Unit)
  | [] => .done (.ok ())
  | f :: fs => (w.attend f).bind fun x =>
    match x with
    | .ok () => relay fs
    | .error r => .done (.error (r.because (.delivery (.handlerFailed f.eventName))))

/-- One publication after the other, whatever becomes of it. -/
def relayEach : List (List Fact) → Plan Unit
  | [] => .done ()
  | fs :: rest => ((w.relay fs).bind fun _ => relayEach rest).afterStamps fs.length

theorem handle_eq_attend {h : Handler} {e : Event} (he : e.fact.handler? = some h) :
    w.handle h e = w.attend e.fact := by
  obtain ⟨stamp, fact, metadata⟩ := e
  cases fact with
  | podWatchFailed message => cases he
  | node change node => cases he; rfl
  | nodeWatchFailed message => cases he; rfl
  | pod change pod => cases he; rfl

theorem deliver_eq_attend (e : Event) :
    Dispatch.deliver w.handle e (Subscription.handlersFor Handler.wired (Named.name e)) =
      (w.attend e.fact).bind fun x =>
        match x with
        | .ok () => .done (.ok ())
        | .error r => .done (.error (r.because (.delivery (.handlerFailed e.fact.eventName)))) := by
  rw [handlersFor_wired]
  cases he : e.fact.handler? with
  | none => simp only [Option.toList_none, Dispatch.deliver, attend, he, Plan.pure_eq,
      Plan.bind_done]
  | some h =>
    simp only [Option.toList_some, Dispatch.deliver, w.handle_eq_attend he]
    rfl

end Workplace

namespace Pipeline

variable {p : Pipeline}

theorem flatten_publications (p : Pipeline) (r : Resource) (c : Callback) :
    ((p.publications r c).map (·.facts)).flatten = p.facts r c := List.flatMap_def.symm

theorem publish_eq_relay (hp : p.subscriptions = Handler.wired) (es : List Event) :
    p.publish es = p.workplace.relay (es.map (·.fact)) := by
  have hstep : ∀ e es, p.publish (e :: es) =
      (Dispatch.deliver p.workplace.handle e
        (Subscription.handlersFor p.subscriptions (Named.name e))).bind fun x =>
          match x with
          | .ok () => p.publish es
          | .error r => .done (.error r) := fun _ _ => rfl
  induction es with
  | nil => rfl
  | cons e es ih =>
    rw [hstep, hp, Workplace.deliver_eq_attend, Plan.bind_assoc, List.map_cons, Workplace.relay, ih]
    refine congrArg _ (funext fun x => ?_)
    cases x <;> rfl

/-- Staging takes one stamp for each fact; what goes by the facts alone does not read them. -/
theorem stage_bind {α : Type} {f : Aggregate → Plan α} {g : List Fact → Plan α}
    (hf : ∀ a, f a = g (a.staged.map (·.fact))) (a : Aggregate) (fs : List Fact) :
    (stage a fs).bind f = (g (a.staged.map (·.fact) ++ fs)).afterStamps fs.length := by
  induction fs generalizing a with
  | nil =>
    rw [List.append_nil, ← hf]
    rfl
  | cons fact fs ih =>
    have hnext : ∀ s, (stage (a.add s fact) fs).bind f =
        (g (a.staged.map (·.fact) ++ fact :: fs)).afterStamps fs.length := by
      intro s
      simpa using ih (a.add s fact)
    exact congrArg (Plan.step .stamp) (funext hnext)

theorem events_bind {α : Type} {f : List Event → Plan α} {g : List Fact → Plan α}
    (hf : ∀ es, f es = g (es.map (·.fact))) (x : Publication) :
    x.events.bind f = (g x.facts).afterStamps x.facts.length := by
  cases x with
  | lone fact => exact congrArg (Plan.step .stamp) (funext fun s => hf [⟨s, fact, ∅⟩])
  | batch b =>
    have hstage := stage_bind (f := fun a => f a.take.1) (fun a => hf a.staged)
      ⟨b.node, nodeAggregate, []⟩ b.facts
    simpa only [Publication.events, Publication.facts, Plan.bind_eq, Plan.pure_eq,
      Plan.bind_assoc, Plan.bind_done, List.map_nil, List.nil_append] using hstage

/-- A callback to a wired pipeline relays the facts of its publications. -/
theorem on_eq_relayEach (hp : p.subscriptions = Handler.wired) (r : Resource) (c : Callback) :
    p.on r c = p.workplace.relayEach ((p.publications r c).map (·.facts)) := by
  rw [on_eq]
  induction p.publications r c with
  | nil => rfl
  | cons x xs ih =>
    refine events_bind (g := fun fs => (p.workplace.relay fs).bind fun _ =>
      p.workplace.relayEach (xs.map (·.facts))) (fun es => ?_) x
    rw [← publish_eq_relay hp, ← ih]
    rfl

end Pipeline

end SessionWatch
