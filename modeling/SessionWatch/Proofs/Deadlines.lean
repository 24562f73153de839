import SessionWatch.Proofs.Indexing
import SessionWatch.Proofs.Lifetimes

/-!
How long a store in memory keeps labels. The moment from which they are gone must be one that the
monotonic clock can show: then they are written and are there until just that moment, and if not,
the process dies of it. Either way labels and their pool in the set are there together or not at
all.
-/

namespace SessionWatch

open Storage Cluster

/-! ### Moments that the clock can show -/

namespace Clock

/-- The monotonic clock can show the moment so many seconds from now. -/
def Reaches (c : Clock) (seconds : ℕ) : Prop := c.monotonic / 1000 + seconds ≤ lastSecond

instance (c : Clock) : DecidablePred c.Reaches := fun seconds =>
  inferInstanceAs (Decidable (c.monotonic / 1000 + seconds ≤ lastSecond))

theorem isSome_deadline? (c : Clock) (seconds : ℕ) :
    (c.deadline? (seconds * 1000)).isSome ↔ c.Reaches seconds := by
  have hseconds : (c.monotonic + seconds * 1000) / 1000 = c.monotonic / 1000 + seconds :=
    Nat.add_mul_div_right _ _ (by decide)
  rw [deadline?, hseconds, Reaches]
  split <;> simp [*]

end Clock

namespace Settings

variable (s : Settings)

/-- Labels written now are kept forever, or until a moment that the clock can show. -/
def IsTimely (s : Settings) (c : Clock) : Prop :=
  s.poolLabelsTtlSecs = 0 ∨ c.Reaches s.poolLabelsTtlSecs.toNat

instance : DecidablePred s.IsTimely := fun c =>
  inferInstanceAs (Decidable (s.poolLabelsTtlSecs = 0 ∨ c.Reaches s.poolLabelsTtlSecs.toNat))

theorem inReach_record_iff (c : Clock) (pool : String) (labels : Labels) :
    (s.labelsCache.record pool labels).InReach c ↔ s.IsTimely c := by
  rw [Record.InReach, expiry_record, IsTimely]
  by_cases h : s.poolLabelsTtlSecs = 0
  · simp [h]
  · simp [h, milliseconds, Clock.isSome_deadline?]

theorem shown_record (pool : String) (labels : Labels) (written now : Clock) :
    (s.labelsCache.record pool labels).shown written now =
      if s.poolLabelsTtlSecs = 0 ∨
          now.monotonic < written.monotonic + 1000 * s.poolLabelsTtlSecs.toNat then
        some (LabelsCache.payload labels)
      else none := by
  rw [Record.shown, expiry_record]
  by_cases h : s.poolLabelsTtlSecs = 0
  · rw [if_pos h, if_pos (.inl h)]
    rfl
  · rw [if_neg h, milliseconds, Nat.mul_comm]
    exact if_congr (by simp [h]) rfl rfl

end Settings

/-! ### One write -/

namespace Storage.Memory

/-- The process dies of a single record that is out of reach before anything is written. -/
theorem index_of_out_of_reach (m : Memory) {x : Indexing} (h : x.IsTaken) {r : Record}
    (hr : x.records = [r]) (hreach : ¬ r.InReach x.clock) :
    m.index x = ({ m with failing := x.refused }, none) := by
  have hserves := (m.fails_index x).trans (decide_eq_false (not_not.2 h))
  have hwritten : ({ m with failing := x.refused } : Memory).writeAll x.clock [r] =
      ({ m with failing := x.refused }, false) :=
    writeAll_of_broken (List.forall_mem_nil _) hreach _
  rw [index, exchange_of_not_fails _ hserves, hr]
  simp only [serve, hwritten]

end Storage.Memory

namespace LabelsCache

variable (c : LabelsCache)

/-- The call that writes labels for a pool, as a store meets it. -/
def indexing (now : Conditions) (pool : String) (labels : Labels) : Indexing :=
  ⟨now.clock, now.refused 0, c.setKey, [c.record pool labels]⟩

variable {node : Node} {pool : String}

theorem update_single (hpool : node.labels.get? c.poolLabel = some pool) :
    ∃ f : Result UInt64 → Result Unit, (∀ n, f (.ok n) = .ok ()) ∧
      c.update 1 node = (Plan.exchange 0 (.index c.setKey [c.record pool node.labels])).bind
        fun a => .done (f a) := by
  refine ⟨fun a => match ({ total := 1 } : Tally UInt64).record a |>.verdict with
    | .ok _ => .ok ()
    | .error e => .error ((e.because (.handling .storage)).attach (.agentPool pool)),
    fun _ => rfl, ?_⟩
  unfold update
  rw [hpool]
  refine congrArg (Plan.step _) (funext fun a => ?_)
  cases a <;> rfl

theorem play_update {w : World} {m : Memory} (hw : w.backends = [.memory m]) (ω : Weather)
    (hpool : node.labels.get? c.poolLabel = some pool) :
    let x := m.index (c.indexing (ω 0) pool node.labels)
    let y := (c.update 1 node).play ⟨w, ω⟩
    y.1.world.backends = [.memory x.1] ∧ (x.2 = none → y.2 = none) ∧
      ∀ n, x.2 = some (.ok n) → y.2 = some (.ok ()) := by
  intro x y
  let after : World := { w with clock := (ω 0).clock, backends := [.memory x.1] }
  obtain ⟨f, hok, hplan⟩ := c.update_single hpool
  have hunder : w.under (ω 0) (.exchange 0 (.index c.setKey [c.record pool node.labels])) =
      (after, x.2) := by
    rw [World.under_exchange, hw]
    rfl
  have hy : y = (⟨after, fun n => ω (n + 1)⟩, x.2.map f) := by
    show (c.update 1 node).play ⟨w, ω⟩ = _
    rw [hplan, Plan.play_bind_done, Plan.exchange, Plan.play_once, Scene.perform_eq, hunder]
  rw [hy]
  refine ⟨rfl, fun hdied => ?_, fun n hn => ?_⟩
  · rw [hdied]
    rfl
  · rw [hn]
    exact congrArg some (hok n)

end LabelsCache

/-- What a store comes to when labels are written at a time. If this is timely they are written,
with their pool in the set, and show until their time is over; if not, the process dies and the
store keeps what it had. -/
structure Storage.Memory.Keeps (m m' : Memory) (s : Settings) (now : Clock) (pool : String)
    (labels : Labels) (x : Option (Result Unit)) : Prop where
  timely : s.IsTimely now → x = some (.ok ()) ∧ (m'.members s.poolSetKey).contains pool = true ∧
    ∀ later, m'.get? later pool =
      if s.poolLabelsTtlSecs = 0 ∨
          later.monotonic < now.monotonic + 1000 * s.poolLabelsTtlSecs.toNat then
        some (LabelsCache.payload labels)
      else none
  untimely : ¬ s.IsTimely now → x = none ∧ m'.strings = m.strings ∧ m'.sets = m.sets

theorem Settings.keeps_update (s : Settings) {w : World} {m : Memory}
    (hw : w.backends = [.memory m]) {ω : Weather} (hcalm : .index ∉ (ω 0).refused 0) {node : Node}
    {pool : String} (hpool : node.labels.get? s.poolLabel = some pool) :
    ∃ m', ((s.labelsCache.update 1 node).play ⟨w, ω⟩).1.world.backends = [.memory m'] ∧
      m.Keeps m' s (ω 0).clock pool node.labels
        ((s.labelsCache.update 1 node).play ⟨w, ω⟩).2 := by
  let x := s.labelsCache.indexing (ω 0) pool node.labels
  have htaken : x.IsTaken := hcalm
  have hreach := s.inReach_record_iff (ω 0).clock pool node.labels
  obtain ⟨hbackends, hdies, hanswers⟩ := s.labelsCache.play_update hw ω hpool
  refine ⟨_, hbackends, ?_⟩
  by_cases htimely : s.IsTimely (ω 0).clock
  · have hfeasible : x.IsFeasible := by
      refine ⟨fun r hr => ?_, show 1 < UInt64.size by decide⟩
      obtain rfl := List.mem_singleton.1 hr
      exact hreach.2 htimely
    obtain ⟨n, hn, -⟩ := Memory.answer_index (m := m) htaken hfeasible
    refine ⟨fun _ => ⟨hanswers n hn, ?_, fun later => ?_⟩, absurd htimely⟩
    · rw [Memory.members_index (fun _ => hfeasible), if_pos ⟨htaken, rfl⟩,
        Memory.contains_addKeys]
      exact .inr (List.mem_singleton.2 rfl)
    · have hstored : (m.index x).1.strings.get? pool =
          some ((s.labelsCache.record pool node.labels).stored (ω 0).clock) := by
        have hlast : Indexing.lastWrite [x] pool =
            some ((ω 0).clock, s.labelsCache.record pool node.labels) := by
          rw [Indexing.lastWrite_single, if_pos htaken]
          simp [x, LabelsCache.indexing, LabelsCache.record, Record.expiresAfter]
        rw [Memory.strings_index (fun _ => hfeasible), hlast]
        rfl
      rw [Memory.get?_of_stored hstored, s.shown_record]
  · have hbroken := m.index_of_out_of_reach (x := x) htaken rfl fun h => htimely (hreach.1 h)
    refine ⟨fun h => absurd h htimely, fun _ => ⟨hdies (congrArg Prod.snd hbroken), ?_⟩⟩
    show (m.index x).1.strings = _ ∧ (m.index x).1.sets = _
    rw [hbroken]
    exact ⟨rfl, rfl⟩

/-! ### Runs -/

theorem Settings.isBare_openBackends (s : Settings) (h : s.redis.mock = true)
    (peerAt : String → Redis.Peer) (clock : Clock) :
    World.IsBare { clock, backends := (s.openBackends peerAt).1 } := by
  intro b hb
  simp only [openBackends, h, if_true, List.mem_singleton] at hb
  exact ⟨_, hb, rfl, rfl⟩

namespace Storage.Memory

/-- The keys of the strings are those in the set. -/
def IsWhole (set : String) (m : Memory) : Prop :=
  ∀ key, (m.strings.get? key).isSome = (m.members set).contains key

theorem IsWhole.exchange {m : Memory} {set : String} (h : m.IsWhole set) (c : Clock) {r : Request}
    (hr : r.writes = [] ∨ ∃ x, r = .index set [x]) : (m.exchange c r).1.IsWhole set := by
  rcases hr with hr | ⟨x, rfl⟩
  · obtain ⟨hstrings, hsets⟩ := m.exchange_of_no_writes c hr
    intro key
    rw [hstrings, members, hsets]
    exact h key
  · have hout := m.exchange_outcome c (.index set [x])
    have hsingle : (Request.index set [x]).IsSingle := Nat.le_refl 1
    generalize hrs : ([x] : List Record) = rs at hout hsingle
    generalize m.exchange c (.index set rs) = y at hout
    cases hout with
    | refused e _ => exact h
    | nothing => cases hrs
    | broken set done r rest =>
      obtain rfl := hsingle.eq_nil
      exact h
    | index set hne _ =>
      subst hrs
      intro key
      by_cases hk : x.key = key
      · subst hk
        simp [putAll, put, addMembers, addKeys, members, record, Table.contains]
      · simpa [putAll, put, addMembers, addKeys, members, record, Table.contains, hk] using h key

end Storage.Memory

namespace Settings

variable {s : Settings} {schema : Schema} {w : World} {os : List Occasion} {n : ℕ}

theorem survives_of_isTimely (hos : ∀ o ∈ os, ∀ k, s.IsTimely (o.weather k).clock) :
    (s.pipeline n Handler.wired schema).Survives w os := by
  induction os generalizing w with
  | nil => trivial
  | cons o os ih =>
    refine ⟨?_, ih fun o' ho' => hos o' (by simp [ho'])⟩
    refine (Pipeline.on_writes_labels rfl o.resource o.callback).ends_of_inReach ?_
    rintro q (hq | ⟨x, rfl⟩) k
    · exact (Request.lasting_of_no_writes hq).inReach _
    · intro r hr
      obtain rfl := List.mem_singleton.1 hr
      exact (s.inReach_record_iff _ x.1 x.2).2 (hos o (by simp) k)

/-- Whatever becomes of a run, no store is left with a part of a write. -/
theorem isWhole_meetAll (hw : w.IsBare) (os : List Occasion) {i : ℕ} (hi : i < w.backends.length) :
    ∃ m, ((s.pipeline n Handler.wired schema).meetAll w os).backends[i]? = some (.memory m) ∧
      m.IsWhole s.poolSetKey := by
  obtain ⟨m, hm, hstrings, hsets⟩ := hw _ (List.getElem_mem hi)
  have hstore : w.backends[i]? = some (.memory m) := by rw [List.getElem?_eq_getElem hi, hm]
  have hwhole : m.IsWhole s.poolSetKey := by
    intro key
    simp [Memory.members, hstrings, hsets, Table.contains]
  refine Pipeline.store_meetAll (fun m ops c r hr hI => ?_) (Pipeline.on_writes_labels rfl) os
    hstore hwhole
  refine Memory.IsWhole.exchange (m := { m with failing := ops }) hI c ?_
  rcases hr with hr | ⟨x, rfl⟩
  · exact .inl hr
  · exact .inr ⟨_, rfl⟩

end Settings

/-- Over a single store that does not refuse it, the labels of a node with a pool are written
together with the pool, and show until their time is over, just if the moment at which it is over is
one that the monotonic clock can show; if not, the process dies and the store keeps what it had. A
node without a pool is passed over. A run from bare stores, such as the one that a monitor starts
with in its own process, survives while it is timely for all that it does; and at its end, even if
it has not survived, the pools with labels are those in the set at every store. -/
theorem labels_kept_or_dead (s : Settings) (schema : Schema) :
    (∀ (w : World) (m : Memory) (ω : Weather) (node : Node), w.backends = [.memory m] →
      .index ∉ (ω 0).refused 0 →
      let x := (s.labelsCache.update 1 node).play ⟨w, ω⟩
      match node.labels.get? s.poolLabel with
      | none => x = (⟨w, ω⟩, some (.ok ()))
      | some pool => ∃ m', x.1.world.backends = [.memory m'] ∧
          m.Keeps m' s (ω 0).clock pool node.labels x.2) ∧
    (s.redis.mock = true → ∀ peerAt clock,
      World.IsBare { clock, backends := (s.openBackends peerAt).1 }) ∧
    ∀ (w : World) (os : List Occasion), w.IsBare →
      let p := s.pipeline w.backends.length Handler.wired schema
      ((∀ o ∈ os, ∀ k, s.IsTimely (o.weather k).clock) → p.Survives w os) ∧
      ∀ i < w.backends.length, ∃ m, (p.meetAll w os).backends[i]? = some (.memory m) ∧
        m.IsWhole s.poolSetKey := by
  refine ⟨fun w m ω node hw hcalm => ?_, s.isBare_openBackends, fun w os hw =>
    ⟨Settings.survives_of_isTimely, fun i hi => Settings.isWhole_meetAll hw os hi⟩⟩
  intro x
  cases hpool : node.labels.get? s.poolLabel with
  | none =>
    show (s.labelsCache.update 1 node).play ⟨w, ω⟩ = _
    unfold LabelsCache.update
    rw [show node.labels.get? s.labelsCache.poolLabel = none from hpool]
    rfl
  | some pool => exact s.keeps_update hw hcalm hpool

/-! A node of one pool whose labels are kept for a minute, or for as long as can be set. -/

namespace Sample

def keptInProcess (seconds : UInt64) : Settings :=
  { poolLabelsTtlSecs := seconds, redis := { mock := true } }

def single : World := { clock := ⟨0, 0⟩, backends := [.memory { name := "mock" }] }

def poolNode : Node := { name := "n1", labels := .ofList [("agentpool", "a")] }

end Sample

theorem labels_kept_or_dead_sample :
    let s := Sample.keptInProcess 60
    let ω := Sample.calm 1000
    let x := (s.labelsCache.update 1 Sample.poolNode).play ⟨Sample.single, ω⟩
    s.validate = .ok () ∧ s.IsTimely (ω 0).clock ∧ Sample.single.IsBare ∧
      x.2 = some (.ok ()) ∧
      (∃ m, x.1.world.backends = [.memory m] ∧ (m.members "gpu-agent-pools").contains "a" = true ∧
        m.get? ⟨0, 59999⟩ "a" = some (LabelsCache.payload Sample.poolNode.labels) ∧
        m.get? ⟨0, 60000⟩ "a" = none) ∧
      (s.pipeline 1 Handler.wired).Survives Sample.single (Sample.naming "a") := by
  intro s ω x
  have htimely : s.IsTimely (ω 0).clock := by decide
  have hw : Sample.single.IsBare := by
    intro b hb
    obtain rfl := List.mem_singleton.1 hb
    exact ⟨_, rfl, rfl, rfl⟩
  obtain ⟨m, hm, hkeeps⟩ := (labels_kept_or_dead s .v1).1 Sample.single { name := "mock" } ω
    Sample.poolNode rfl List.not_mem_nil
  obtain ⟨hok, hmember, hshown⟩ := hkeeps.timely htimely
  have hsurvives := ((labels_kept_or_dead s .v1).2.2 Sample.single (Sample.naming "a") hw).1
    fun o ho k => by
      obtain rfl := List.mem_singleton.1 ho
      exact htimely
  have hthere := (hshown ⟨0, 59999⟩).trans (if_pos (.inr (by decide)))
  have hgone := (hshown ⟨0, 60000⟩).trans (if_neg (by decide))
  exact ⟨rfl, htimely, hw, hok, ⟨m, hm, hmember, hthere, hgone⟩, hsurvives⟩

/-- Labels that are to be kept for as long as can be set are not written: the process dies. -/
theorem longest_time_fatal :
    let s := Sample.keptInProcess 18446744073709551615
    let x := (s.labelsCache.update 1 Sample.poolNode).play ⟨Sample.single, Sample.calm 1000⟩
    s.validate = .ok () ∧ x.2 = none ∧ x.1.world.backends = [.memory { name := "mock" }] ∧
      ¬ (s.pipeline 1 Handler.wired).Survives Sample.single (Sample.naming "a") := by
  intro s x
  let labels := Sample.poolNode.labels
  let now := Sample.calm 1000 0
  have htoo : ¬ (s.labelsCache.record "a" labels).InReach now.clock := by
    rw [s.inReach_record_iff]
    decide
  have hbroken := Memory.index_of_out_of_reach { name := "mock" }
    (x := s.labelsCache.indexing now "a" labels) List.not_mem_nil rfl htoo
  have hpool : labels.get? s.labelsCache.poolLabel = some "a" := by decide
  obtain ⟨hbackends, hdies, -⟩ :=
    s.labelsCache.play_update (w := Sample.single) rfl (Sample.calm 1000) hpool
  rw [hbroken] at hbackends hdies
  refine ⟨rfl, hdies rfl, hbackends, ?_⟩
  rintro ⟨hfirst, -⟩
  revert hfirst
  decide +kernel

end SessionWatch
