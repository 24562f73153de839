import SessionWatch.Handler
import SessionWatch.Proofs.Deeds

/-!
Asking the sessions for times. A session is enqueued once two times are found, the node's and then
that of its own pod; a look for a time is a call and one access to the cache.
-/

namespace SessionWatch

open Session

namespace World

/-- A world in which the sessions have been called as well, and the clocks stand so. -/
def called (w : World) (calls : List Call) (clock : Clock) : World :=
  { w with clock := clock, notes := w.notes ++ calls.map .called }

theorem called_called (w : World) (calls later : List Call) (clock clock' : Clock) :
    (w.called calls clock).called later clock' = w.called (calls ++ later) clock' := by
  simp [called]

end World

/-- A time that the sessions are asked for: the key that they look under and what they find. -/
structure Look where
  call : Call
  key : String
  found : Option Int64

def Look.deeds (l : Look) : List Deed := [⟨.note (.called l.call), ()⟩, ⟨.consult l.key, l.found⟩]

namespace Session

theorem timeUnder_play (key : String) (w : World) (ω : Weather) :
    (timeUnder key).play ⟨w, ω⟩ =
      (⟨{ w with clock := (ω 0).clock }, fun k => ω (k + 1)⟩,
        some (match w.cache.get? key with
          | some t => .ok t
          | none => .error (.of (.session (.keyNotFound key))))) := by
  rw [timeUnder, Plan.bind_eq, Plan.play_bind_of_some (Plan.play_consult key w ω)]
  cases w.cache.get? key <;> rfl

theorem timeUnder_deeds (key : String) (w : World) (ω : Weather) :
    (timeUnder key).deeds ⟨w, ω⟩ = [⟨.consult key, w.cache.get? key⟩] := by
  have hconsult : (Plan.consult key).deeds ⟨w, ω⟩ = [⟨.consult key, w.cache.get? key⟩] := rfl
  rw [timeUnder, Plan.bind_eq, Plan.deeds_bind_of_some (Plan.play_consult key w ω), hconsult]
  cases w.cache.get? key <;> rfl

def look (call : Call) (key : String) : Plan (Result Int64) :=
  (Plan.note (.called call)).bind fun _ => timeUnder key

section

variable (call : Call) {key : String} {w : World} (ω : Weather)

theorem look_play_of_none (h : w.cache.get? key = none) : (look call key).play ⟨w, ω⟩ =
    (⟨w.called [call] (ω 1).clock, fun k => ω (k + 2)⟩,
      some (.error (.of (.session (.keyNotFound key))))) := by
  rw [look, Plan.play_bind_of_some (Plan.play_note _ w ω), timeUnder_play]
  simp only [h]
  rfl

theorem look_play_of_some {t : Int64} (h : w.cache.get? key = some t) :
    (look call key).play ⟨w, ω⟩ =
      (⟨w.called [call] (ω 1).clock, fun k => ω (k + 2)⟩, some (.ok t)) := by
  rw [look, Plan.play_bind_of_some (Plan.play_note _ w ω), timeUnder_play]
  simp only [h]
  rfl

theorem look_deeds (key : String) (w : World) :
    (look call key).deeds ⟨w, ω⟩ = (Look.mk call key (w.cache.get? key)).deeds := by
  rw [look, Plan.deeds_bind_of_some (Plan.play_note _ w ω), timeUnder_deeds]
  rfl

end

end Session

namespace Workplace

variable (p : Workplace) (pod : Pod)

def tell (r : Ready) : Plan (Result Unit) :=
  (Plan.note (.called (.ready r))).bind fun _ => (setReady p.backends p.streams r).bind fun y =>
    .done ((y.because (.handling .session)).map fun _ => ())

theorem enqueueSession_eq : p.enqueueSession pod =
    (look (.getNode pod.nodeName) (nodeKey pod.nodeName)).bind fun a =>
      match a with
      | .error r => .done (.error (r.because (.handling .session)))
      | .ok tn => (look (.getPod pod.sessionId) (podKey pod.sessionId)).bind fun b =>
        match b with
        | .error r => .done (.error (r.because (.handling .session)))
        | .ok tp => p.tell ⟨pod.sessionId, pod.nodeName, tn, tp, pod.ip⟩ := by
  -- A look is two steps of the plan; they are brought together as the plan is gone through.
  rw [look, Plan.bind_assoc]
  refine congrArg (Plan.bind _) (funext fun _ => congrArg (Plan.bind _) (funext fun a => ?_))
  cases a with
  | error r => rfl
  | ok tn =>
    simp only [look, Plan.bind_assoc]
    refine congrArg (Plan.bind _) (funext fun _ => congrArg (Plan.bind _) (funext fun b => ?_))
    cases b with
    | error r => rfl
    | ok tp =>
      refine congrArg (Plan.bind _) (funext fun _ => congrArg (Plan.bind _) (funext fun y => ?_))
      cases y <;> rfl

def nodeLook (w : World) : Look :=
  ⟨.getNode pod.nodeName, nodeKey pod.nodeName, w.cache.get? (nodeKey pod.nodeName)⟩

def podLook (w : World) : Look :=
  ⟨.getPod pod.sessionId, podKey pod.sessionId, w.cache.get? (podKey pod.sessionId)⟩

variable {p pod} {w : World} (ω : Weather)

theorem enqueueSession_of_unprovisioned (hn : w.cache.get? (nodeKey pod.nodeName) = none) :
    (p.enqueueSession pod).play ⟨w, ω⟩ =
        (⟨w.called [.getNode pod.nodeName] (ω 1).clock, fun k => ω (k + 2)⟩,
          some (.error ⟨[.cause (.handling .session),
            .cause (.session (.keyNotFound (nodeKey pod.nodeName)))]⟩)) ∧
      (p.enqueueSession pod).deeds ⟨w, ω⟩ = (nodeLook pod w).deeds := by
  have hlook := look_play_of_none (.getNode pod.nodeName) ω hn
  rw [enqueueSession_eq, Plan.play_bind_of_some hlook, Plan.deeds_bind_of_some hlook, look_deeds]
  exact ⟨rfl, List.append_nil _⟩

theorem enqueueSession_of_unscheduled {tn : Int64}
    (hn : w.cache.get? (nodeKey pod.nodeName) = some tn)
    (hp : w.cache.get? (podKey pod.sessionId) = none) :
    (p.enqueueSession pod).play ⟨w, ω⟩ =
        (⟨w.called [.getNode pod.nodeName, .getPod pod.sessionId] (ω 3).clock, fun k => ω (k + 4)⟩,
          some (.error ⟨[.cause (.handling .session),
            .cause (.session (.keyNotFound (podKey pod.sessionId)))]⟩)) ∧
      (p.enqueueSession pod).deeds ⟨w, ω⟩ = (nodeLook pod w).deeds ++ (podLook pod w).deeds := by
  have hfirst := look_play_of_some (.getNode pod.nodeName) ω hn
  have hsecond := look_play_of_none (.getPod pod.sessionId) (fun k => ω (k + 2))
    (w := w.called [.getNode pod.nodeName] (ω 1).clock) hp
  rw [World.called_called] at hsecond
  rw [enqueueSession_eq, Plan.play_bind_of_some hfirst, Plan.deeds_bind_of_some hfirst, look_deeds]
  simp only [Plan.play_bind_of_some hsecond, Plan.deeds_bind_of_some hsecond, look_deeds]
  exact ⟨rfl, congrArg _ (List.append_nil _)⟩

theorem enqueueSession_of_known {tn tp : Int64}
    (hn : w.cache.get? (nodeKey pod.nodeName) = some tn)
    (hp : w.cache.get? (podKey pod.sessionId) = some tp) :
    let r : Ready := ⟨pod.sessionId, pod.nodeName, tn, tp, pod.ip⟩
    let looks := [nodeLook pod w, podLook pod w]
    let c : Scene := ⟨w.called (looks.map (·.call)) (ω 3).clock, fun k => ω (k + 4)⟩
    (p.enqueueSession pod).play ⟨w, ω⟩ = (p.tell r).play c ∧
      (p.enqueueSession pod).deeds ⟨w, ω⟩ = looks.flatMap Look.deeds ++ (p.tell r).deeds c := by
  have hfirst := look_play_of_some (.getNode pod.nodeName) ω hn
  have hsecond := look_play_of_some (.getPod pod.sessionId) (fun k => ω (k + 2))
    (w := w.called [.getNode pod.nodeName] (ω 1).clock) hp
  rw [World.called_called] at hsecond
  rw [enqueueSession_eq, Plan.play_bind_of_some hfirst, Plan.deeds_bind_of_some hfirst, look_deeds]
  simp only [Plan.play_bind_of_some hsecond, Plan.deeds_bind_of_some hsecond, look_deeds]
  exact ⟨rfl, rfl⟩

end Workplace

end SessionWatch
