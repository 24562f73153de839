import SessionWatch.Proofs.Replicas

/-!
What the backends may be asked. A plan makes only the requests that it is built of, and a callback
only those that the handling of its facts may lead to, whatever is answered.
-/

namespace SessionWatch

open Session Storage Cluster

theorem requestsTo_cons (i : ℕ) (d : Deed) (ds : List Deed) :
    requestsTo i (d :: ds) = requestsTo i [d] ++ requestsTo i ds := requestsTo_append i [d] ds

theorem requestsTo_exchange (i k : ℕ) (r : Request) (x : Result r.Answer) :
    requestsTo i [⟨.exchange k r, x⟩] = if k = i then [r] else [] := by
  by_cases hk : k = i <;> simp [requestsTo, callsAt, Deed.callAt, hk]

/-! ### Requests that a plan may make -/

namespace Plan

variable {α β : Type} {P Q : Request → Prop} {p : Plan α}

def Only (P : Request → Prop) : Plan α → Prop
  | .done _ => True
  | .step s next => (∀ i r, s = .exchange i r → P r) ∧ ∀ x, (next x).Only P

theorem Only.mono (hp : p.Only P) (hPQ : ∀ r, P r → Q r) : p.Only Q := by
  induction p with
  | done a => trivial
  | step s next ih => exact ⟨fun i r hs => hPQ r (hp.1 i r hs), fun x => ih x (hp.2 x)⟩

theorem Only.bind {f : α → Plan β} (hp : p.Only P) (hf : ∀ a, (f a).Only P) :
    (p.bind f).Only P := by
  induction p with
  | done a => exact hf a
  | step s next ih => exact ⟨hp.1, fun x => ih x (hp.2 x)⟩

theorem once_only {s : Step} (hs : s.IsOwn) : (once s).Only P :=
  ⟨by rintro i r rfl; exact hs.elim, fun _ => trivial⟩

theorem note_only (n : Note) : (note n).Only P := once_only trivial

theorem consult_only (key : String) : (consult key).Only P := once_only trivial

theorem remember_only (key : String) (t : Int64) : (remember key t).Only P := once_only trivial

theorem forget_only (key : String) : (forget key).Only P := once_only trivial

theorem Only.afterStamps (hp : p.Only P) (n : ℕ) : (p.afterStamps n).Only P := by
  induction n with
  | zero => exact hp
  | succ n ih => exact ⟨nofun, fun _ => ih⟩

theorem Only.of_mem_requestsTo (hp : p.Only P) (c : Scene) {i : ℕ} {r : Request}
    (hr : r ∈ requestsTo i (p.deeds c)) : P r := by
  induction p generalizing c with
  | done a => cases hr
  | step s next ih =>
    rw [deeds_step] at hr
    rcases hs : c.perform s with ⟨c', _ | x⟩
    · rw [hs] at hr
      cases hr
    · rw [hs] at hr
      rw [requestsTo_cons, List.mem_append] at hr
      rcases hr with hr | hr
      · cases s with
        | exchange k q =>
          rw [requestsTo_exchange] at hr
          split at hr
          · exact List.mem_singleton.1 hr ▸ hp.1 k q rfl
          · cases hr
        | _ => cases hr
      · exact ih x (hp.2 x) c' hr

end Plan

theorem Storage.fanOut_only {P : Request → Prop} {r : Request} (hr : P r) (n : ℕ) :
    (fanOut n r).Only P := by
  have hask : ∀ t is, (askEach r t is).Only P := by
    intro t is
    induction is generalizing t with
    | nil => trivial
    | cons i is ih => exact ⟨by rintro _ _ ⟨⟩; exact hr, fun a => ih (t.record a)⟩
  exact (hask _ _).bind fun _ => trivial

theorem Session.push_only {P : Request → Prop} (n : ℕ) (stream : String) (kind : TaskKind)
    (info : String) (htime : P .time)
    (happend : ∀ t, P (.append stream automaticId (Task.mk kind info t).fields)) :
    (push n stream kind info).Only P := by
  refine (fanOut_only htime n).bind fun a => ?_
  cases a with
  | error r => trivial
  | ok t =>
    refine (fanOut_only (happend t) n).bind fun b => ?_
    cases b <;> trivial

theorem Session.timeUnder_only {P : Request → Prop} (key : String) : (timeUnder key).Only P := by
  refine (Plan.consult_only key).bind fun x => ?_
  cases x <;> trivial

/-! ### Requests that are always answered -/

namespace Storage

/-- The clock can show when all that it writes expires. -/
def Request.InReach (c : Clock) : Request → Prop
  | .index _ rs => ∀ r ∈ rs, r.InReach c
  | _ => True

/-- What it writes is never to expire. -/
def Request.Lasting : Request → Prop
  | .index _ rs => ∀ r ∈ rs, r.expiry = none
  | _ => True

theorem Record.inReach_of_lasting {r : Record} (h : r.expiry = none) (c : Clock) :
    r.InReach c := by
  intro ms hms
  rw [h] at hms
  cases hms

theorem Request.Lasting.inReach {r : Request} (hr : r.Lasting) (c : Clock) : r.InReach c := by
  cases r with
  | index set rs => exact fun x hx => Record.inReach_of_lasting (hr x hx) c
  | _ => trivial

theorem Memory.serve_of_inReach (m : Memory) {c : Clock} {r : Request} (hr : r.InReach c) :
    ∃ a, (m.serve c r).2 = some (.ok a) := by
  cases r with
  | index set rs =>
    cases rs with
    | nil => exact ⟨_, rfl⟩
    | cons r rs =>
      simp only [serve, writeAll_of_inReach hr]
      exact ⟨_, rfl⟩
  | _ => exact ⟨_, rfl⟩

theorem Memory.serve_lasting (m : Memory) (c : Clock) {r : Request} (hr : r.Lasting) :
    ∃ a, (m.serve c r).2 = some (.ok a) := m.serve_of_inReach (hr.inReach c)

theorem Memory.answers_of_inReach (m : Memory) {c : Clock} {r : Request} (hr : r.InReach c) :
    (m.exchange c r).2.isSome := by
  cases hf : m.fails r with
  | true =>
    rw [exchange_of_fails c hf]
    rfl
  | false =>
    obtain ⟨a, ha⟩ := m.serve_of_inReach hr
    rw [exchange_of_not_fails c hf, ha]
    rfl

theorem Backend.answers_of_inReach (b : Backend) (i : ℕ) {c : Conditions} {r : Request}
    (hr : r.InReach c.clock) : (b.asked i c r).2.isSome := by
  cases b with
  | memory m => exact Memory.answers_of_inReach _ hr
  | redis s => rfl

theorem Backend.answers_lasting (b : Backend) (i : ℕ) (c : Conditions) {r : Request}
    (hr : r.Lasting) : (b.asked i c r).2.isSome := b.answers_of_inReach i (hr.inReach c.clock)

end Storage

theorem World.answers_of_inReach (w : World) {c : Conditions} {s : Step}
    (hs : ∀ i r, s = .exchange i r → r.InReach c.clock) : (w.under c s).2.isSome := by
  cases s with
  | exchange i r =>
    rw [under_exchange]
    cases w.backends[i]? with
    | none => rfl
    | some b => exact b.answers_of_inReach i (hs i r rfl)
  | _ => rfl

theorem Plan.Only.ends_of_inReach {α : Type} {p : Plan α} {P : Request → Prop} (hp : p.Only P)
    {w : World} {ω : Weather} (hreach : ∀ r, P r → ∀ k, r.InReach (ω k).clock) :
    (p.play ⟨w, ω⟩).2.isSome := by
  induction p generalizing w ω with
  | done a => rfl
  | step s next ih =>
    have hanswers : (w.under (ω 0) s).2.isSome :=
      w.answers_of_inReach fun i r hs => hreach r (hp.1 i r hs) 0
    obtain ⟨x, hx⟩ := Option.isSome_iff_exists.1 hanswers
    rw [play_step_of_under hx]
    exact ih x (hp.2 x) fun r hr k => hreach r hr (k + 1)

theorem Plan.Only.ends {α : Type} {p : Plan α} (hp : p.Only Request.Lasting) (c : Scene) :
    (p.play c).2.isSome :=
  hp.ends_of_inReach fun _ hr _ => hr.inReach _

theorem Storage.requestsTo_fanOut_lasting {r : Request} (hr : r.Lasting) {n i : ℕ} (hi : i < n)
    (c : Scene) : requestsTo i ((fanOut n r).deeds c) = [r] := by
  obtain ⟨k, -, hasked, hends⟩ := requestsTo_fanOut n r c
  obtain rfl := hends ((fanOut_only hr n).ends c)
  rw [hasked, if_pos hi]

/-! ### Requests that facts lead to -/

namespace Workplace

variable (w : Workplace)

/-- What the handling of a fact may ask the backends. -/
def MayAsk (w : Workplace) : Fact → Request → Prop
  | .node .recordProvision _, r => r = .time
  | .node .updateLabels node, r => ∃ pool, node.labels.get? w.labelsCache.poolLabel = some pool ∧
      r = .index w.labelsCache.setKey [w.labelsCache.record pool node.labels]
  | .pod .recordSchedule _, r => r = .time
  | .pod .delete pod, r => r = .time ∨ ∃ t, r = .append w.streams.delete automaticId
      (Task.mk .delete (Deletable.mk pod.sessionId).encode t).fields
  | .pod .ready pod, r => r = .time ∨ ∃ tn tp t, r = .append w.streams.enqueue automaticId
      (Task.mk .enqueue (Ready.mk pod.sessionId pod.nodeName tn tp pod.ip).encode t).fields
  | _, _ => False

theorem recordProvision_only (node : Node) :
    (w.recordProvision node).Only (w.MayAsk (.node .recordProvision node)) := by
  have htime : w.MayAsk (.node .recordProvision node) .time := rfl
  refine (fanOut_only htime w.backends).bind fun a => ?_
  cases a with
  | error r => trivial
  | ok t => exact (Plan.note_only _).bind fun _ => (Plan.remember_only _ t).bind fun _ => trivial

theorem recordSchedule_only (pod : Pod) :
    (w.recordSchedule pod).Only (w.MayAsk (.pod .recordSchedule pod)) := by
  have htime : w.MayAsk (.pod .recordSchedule pod) .time := rfl
  refine (fanOut_only htime w.backends).bind fun a => ?_
  cases a with
  | error r => trivial
  | ok t => exact (Plan.note_only _).bind fun _ => (Plan.remember_only _ t).bind fun _ => trivial

theorem updateLabels_only (node : Node) :
    (w.labelsCache.update w.backends node).Only (w.MayAsk (.node .updateLabels node)) := by
  unfold LabelsCache.update
  split
  · trivial
  · next pool hpool =>
    refine (fanOut_only ⟨pool, hpool, rfl⟩ w.backends).bind fun a => ?_
    cases a <;> trivial

theorem deleteSession_only (pod : Pod) :
    (w.deleteSession pod).Only (w.MayAsk (.pod .delete pod)) := by
  have hpush : (push w.backends w.streams.delete .delete
      (Deletable.mk pod.sessionId).encode).Only (w.MayAsk (.pod .delete pod)) :=
    push_only _ _ _ _ (.inl rfl) fun t => .inr ⟨t, rfl⟩
  have hdelete : (setDeletable w.backends w.streams ⟨pod.sessionId⟩).Only
      (w.MayAsk (.pod .delete pod)) := by
    refine hpush.bind fun a => ?_
    cases a with
    | error r => trivial
    | ok id => exact (Plan.forget_only _).bind fun _ => trivial
  refine (Plan.note_only _).bind fun _ => hdelete.bind fun a => ?_
  cases a <;> trivial

theorem enqueueSession_only (pod : Pod) :
    (w.enqueueSession pod).Only (w.MayAsk (.pod .ready pod)) := by
  refine (Plan.note_only _).bind fun _ => (timeUnder_only _).bind fun a => ?_
  cases a with
  | error r => trivial
  | ok tn =>
    refine (Plan.note_only _).bind fun _ => (timeUnder_only _).bind fun b => ?_
    cases b with
    | error r => trivial
    | ok tp =>
      have hpush : (setReady w.backends w.streams
          ⟨pod.sessionId, pod.nodeName, tn, tp, pod.ip⟩).Only (w.MayAsk (.pod .ready pod)) :=
        push_only _ _ _ _ (.inl rfl) fun t => .inr ⟨tn, tp, t, rfl⟩
      refine (Plan.note_only _).bind fun _ => hpush.bind fun x => ?_
      cases x <;> trivial

theorem attend_only (f : Fact) : (w.attend f).Only (w.MayAsk f) := by
  cases f with
  | node change node =>
    cases change with
    | recordProvision => exact w.recordProvision_only node
    | updateLabels => exact w.updateLabels_only node
    | _ => trivial
  | pod change pod =>
    cases change with
    | recordSchedule => exact w.recordSchedule_only pod
    | delete => exact w.deleteSession_only pod
    | ready => exact w.enqueueSession_only pod
    | add => trivial
  | nodeWatchFailed message => trivial
  | podWatchFailed message => trivial

theorem relay_only {P : Request → Prop} {fs : List Fact} (h : ∀ f ∈ fs, ∀ r, w.MayAsk f r → P r) :
    (w.relay fs).Only P := by
  induction fs with
  | nil => trivial
  | cons f fs ih =>
    refine ((w.attend_only f).mono (h f (by simp))).bind fun x => ?_
    cases x with
    | ok u => exact ih fun g hg => h g (by simp [hg])
    | error r => trivial

theorem relayEach_only {P : Request → Prop} {fss : List (List Fact)}
    (h : ∀ f ∈ fss.flatten, ∀ r, w.MayAsk f r → P r) : (w.relayEach fss).Only P := by
  induction fss with
  | nil => trivial
  | cons fs fss ih =>
    simp only [List.flatten_cons, List.mem_append] at h
    exact ((w.relay_only fun f hf => h f (.inl hf)).bind fun _ =>
      ih fun f hf => h f (.inr hf)).afterStamps _

end Workplace

theorem Pipeline.on_only {p : Pipeline} (hp : p.subscriptions = Handler.wired) (r : Resource)
    (c : Callback) :
    (p.on r c).Only fun q => ∃ f ∈ p.facts r c, p.workplace.MayAsk f q := by
  rw [on_eq_relayEach hp]
  refine p.workplace.relayEach_only fun f hf q hq => ⟨f, ?_, hq⟩
  rwa [flatten_publications] at hf

end SessionWatch
