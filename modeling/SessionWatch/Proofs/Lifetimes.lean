import SessionWatch.Application
import SessionWatch.Proofs.PoolLabels

/-!
How long servers are told to keep labels. The time is set in seconds and sent as milliseconds in a
word of 64 bits: what is sent is what is meant up to a largest number of seconds, and beyond it what
is left of a word.
-/

namespace SessionWatch

open Storage Cluster

/-! ### Worlds of servers -/

def World.IsRemote (w : World) : Prop := ∀ b ∈ w.backends, ∃ s, b = .redis s

theorem Settings.isRemote_openBackends (s : Settings) (h : s.redis.mock = false)
    (peerAt : String → Redis.Peer) (clock : Clock) :
    World.IsRemote { clock, backends := (s.openBackends peerAt).1 } := by
  intro b hb
  simp only [openBackends, h, Bool.false_eq_true, if_false, List.mem_map] at hb
  obtain ⟨c, -, rfl⟩ := hb
  exact ⟨c, rfl⟩

theorem World.IsRemote.under {w : World} (hw : w.IsRemote) (c : Conditions) (s : Step) :
    (w.under c s).2.isSome ∧ (w.under c s).1.IsRemote := by
  cases s with
  | exchange i r =>
    rw [under_exchange]
    cases hi : w.backends[i]? with
    | none => exact ⟨rfl, hw⟩
    | some b =>
      obtain ⟨s, rfl⟩ := hw b (List.mem_of_getElem? hi)
      refine ⟨rfl, fun b' hb' => ?_⟩
      obtain ⟨k, hk⟩ := List.getElem?_of_mem hb'
      rw [List.getElem?_modify] at hk
      obtain ⟨b₀, hb₀, hb'⟩ := Option.map_eq_some_iff.1 hk
      obtain ⟨s₀, rfl⟩ := hw b₀ (List.mem_of_getElem? hb₀)
      split at hb'
      · exact ⟨_, hb'.symm⟩
      · exact ⟨s₀, hb'.symm⟩
  | _ => exact ⟨rfl, hw⟩

theorem Plan.play_remote {α : Type} (p : Plan α) {w : World} (hw : w.IsRemote) (ω : Weather) :
    (p.play ⟨w, ω⟩).2.isSome ∧ (p.play ⟨w, ω⟩).1.world.IsRemote := by
  induction p generalizing w ω with
  | done a => exact ⟨rfl, hw⟩
  | step s next ih =>
    obtain ⟨hanswers, hremote⟩ := hw.under (ω 0) s
    obtain ⟨x, hx⟩ := Option.isSome_iff_exists.1 hanswers
    rw [play_step_of_under hx]
    exact ih x hremote _

/-! ### What servers are sent -/

section Sent

variable {i : ℕ} {s : Redis.Connection}

theorem World.sent_under {w : World} (c : Conditions) (st : Step)
    (hs : w.backends[i]? = some (.redis s)) :
    ∃ s', (w.under c st).1.backends[i]? = some (.redis s') ∧
      s'.sent = s.sent ++ (requestsTo i (st.deed? (w.under c st).2)).flatMap Redis.commands := by
  have hidle : st.onBackend c i = id → (∀ x, requestsTo i [⟨st, x⟩] = []) →
      ∃ s', (w.under c st).1.backends[i]? = some (.redis s') ∧
        s'.sent = s.sent ++ (requestsTo i (st.deed? (w.under c st).2)).flatMap Redis.commands := by
    intro hbackend hnone
    refine ⟨s, by rw [backends_under, hs, hbackend]; rfl, ?_⟩
    cases (w.under c st).2 with
    | none => exact (List.append_nil _).symm
    | some x =>
      show _ = s.sent ++ (requestsTo i [⟨st, x⟩]).flatMap Redis.commands
      rw [hnone, List.flatMap_nil, List.append_nil]
  cases st with
  | exchange k r =>
    by_cases hk : k = i
    · subst hk
      refine ⟨(s.exchange r).1, ?_, ?_⟩
      · rw [backends_under, hs]
        exact congrArg some (if_pos rfl)
      · have hasked : (w.under c (.exchange k r)).2 = some (s.exchange r).2 := by
          rw [under_exchange, hs]
          rfl
        have hrequests : requestsTo k [⟨.exchange k r, (s.exchange r).2⟩] = [r] := by
          rw [requestsTo_exchange, if_pos rfl]
        rw [hasked, s.sent_exchange]
        show _ = s.sent ++ (requestsTo k [_]).flatMap Redis.commands
        rw [hrequests, List.flatMap_singleton]
    · exact hidle (funext fun b => if_neg hk) fun x => by rw [requestsTo_exchange, if_neg hk]
  | _ => exact hidle rfl fun _ => rfl

theorem Plan.sent_play {α : Type} (p : Plan α) {c : Scene}
    (hs : c.world.backends[i]? = some (.redis s)) :
    ∃ s', (p.play c).1.world.backends[i]? = some (.redis s') ∧
      s'.sent = s.sent ++ (requestsTo i (p.deeds c)).flatMap Redis.commands := by
  induction p generalizing c s with
  | done a => exact ⟨s, hs, (List.append_nil _).symm⟩
  | step st next ih =>
    obtain ⟨s₁, hs₁, hsent₁⟩ := World.sent_under (c.weather 0) st hs
    obtain ⟨w, ω⟩ := c
    rw [play_step, deeds_step, Scene.perform_eq]
    rcases hstep : w.under (ω 0) st with ⟨w', _ | x⟩ <;> rw [hstep] at hs₁ hsent₁
    · exact ⟨s₁, hs₁, hsent₁⟩
    · obtain ⟨s', hs', hsent'⟩ := ih x (c := ⟨w', fun n => ω (n + 1)⟩) hs₁
      have hsplit := requestsTo_cons i ⟨st, x⟩ ((next x).deeds ⟨w', fun n => ω (n + 1)⟩)
      refine ⟨s', hs', ?_⟩
      rw [hsent', hsent₁, hsplit, List.flatMap_append, List.append_assoc]
      rfl

end Sent

/-! ### Texts that are set -/

namespace Storage.Redis

def sets (sent : List (List String)) : List (List String) :=
  sent.filter fun command => command.head? = some "SET"

theorem sets_append (sent more : List (List String)) :
    sets (sent ++ more) = sets sent ++ sets more := List.filter_append _ _

theorem sets_of_no_writes {rs : List Request} (hrs : ∀ r ∈ rs, r.writes = []) :
    sets (rs.flatMap commands) = [] := by
  have hone : ∀ r : Request, r.writes = [] → sets (commands r) = [] := by
    intro r hr
    cases r with
    | index set rs =>
      cases rs with
      | nil => rfl
      | cons r rs => simp [Request.writes] at hr
    | append stream id fields => simp [commands, sets]
    | time => rfl
    | ping => rfl
  rw [sets, List.filter_flatMap]
  exact List.flatMap_eq_nil_iff.2 fun r hr => hone r (hrs r hr)

end Storage.Redis

namespace Pipeline

variable {p : Pipeline} {i : ℕ} {s : Redis.Connection}

/-- What a server is told when labels are written. -/
def setsLabels (p : Pipeline) (x : String × Labels) : List String :=
  Redis.setCommand (p.workplace.labelsCache.record x.1 x.2)

theorem sets_labelsWrite (x : String × Labels) :
    Redis.sets (Redis.commands (p.labelsWrite x)) = [p.setsLabels x] := rfl

/-- In a callback a server is told to set the labels that the callback has written, and nothing
else. -/
theorem sets_deeds (hp : p.subscriptions = Handler.wired) (hi : i < p.workplace.backends)
    {w : World} (hw : w.IsRemote) (o : Occasion) :
    Redis.sets ((requestsTo i (p.deeds w o)).flatMap Redis.commands) =
      (p.labelled? o.resource o.callback).toList.map p.setsLabels := by
  cases hlabelled : p.labelled? o.resource o.callback with
  | none =>
    refine Redis.sets_of_no_writes fun r hr => ?_
    obtain ⟨y, hy, rfl⟩ := List.mem_map.1 hr
    exact callsAt_of_not_labelled hp w hlabelled y hy
  | some x =>
    have hends : ∀ c : Scene, c.world.backends = w.backends →
        ((fanOut p.workplace.backends (p.labelsWrite x)).play c).2.isSome := fun c hc =>
      (Plan.play_remote _ (fun b hb => hw b (hc ▸ hb)) c.weather).1
    obtain ⟨failed, after, hcalls, hafter⟩ := callsAt_of_labelled_of_ends hp hi hends hlabelled
    have hrest : Redis.sets ((after.map (·.1)).flatMap Redis.commands) = [] := by
      refine Redis.sets_of_no_writes fun r hr => ?_
      obtain ⟨y, hy, rfl⟩ := List.mem_map.1 hr
      exact hafter y hy
    rw [requestsTo, hcalls, List.map_cons, List.flatMap_cons, Redis.sets_append, hrest,
      sets_labelsWrite]
    rfl

theorem sets_meetAll (hp : p.subscriptions = Handler.wired) (hi : i < p.workplace.backends)
    {w : World} (hw : w.IsRemote) (os : List Occasion) (hs : w.backends[i]? = some (.redis s)) :
    ∃ s' new, (p.meetAll w os).backends[i]? = some (.redis s') ∧ s'.sent = s.sent ++ new ∧
      Redis.sets new =
        (os.filterMap fun o => p.labelled? o.resource o.callback).map p.setsLabels := by
  induction os generalizing w s with
  | nil => exact ⟨s, [], hs, (List.append_nil _).symm, rfl⟩
  | cons o os ih =>
    obtain ⟨s₁, hs₁, hsent₁⟩ :=
      (p.on o.resource o.callback).sent_play (c := ⟨w, o.weather⟩) hs
    have hremote : (p.meet w o).IsRemote := (Plan.play_remote _ hw o.weather).2
    obtain ⟨s', new, hs', hsent', hnew⟩ := ih hremote hs₁
    refine ⟨s', (requestsTo i (p.deeds w o)).flatMap Redis.commands ++ new, hs', ?_, ?_⟩
    · rw [hsent', hsent₁, List.append_assoc]
      rfl
    · rw [Redis.sets_append, hnew, sets_deeds hp hi hw o]
      cases hlabelled : p.labelled? o.resource o.callback <;> simp [hlabelled]

end Pipeline

/-! ### Milliseconds in a word -/

namespace Settings

variable (s : Settings)

/-- The milliseconds that labels are said to be kept, as far as a word of 64 bits holds them. -/
def sentMilliseconds : ℕ := milliseconds s.poolLabelsTtlSecs % UInt64.size

theorem sentMilliseconds_eq_iff : s.sentMilliseconds = milliseconds s.poolLabelsTtlSecs ↔
    milliseconds s.poolLabelsTtlSecs < UInt64.size := by
  refine ⟨fun h => h ▸ Nat.mod_lt _ (by decide), Nat.mod_eq_of_lt⟩

/-- Nothing is left of them in a word when 2^61 divides the seconds: a thousand is an odd multiple
of 8. -/
theorem sentMilliseconds_eq_zero_iff :
    s.sentMilliseconds = 0 ↔ 2 ^ 61 ∣ s.poolLabelsTtlSecs.toNat := by
  have hodd : Nat.Coprime (2 ^ 61) 125 := by decide
  have hsplit : UInt64.size = 2 ^ 61 * 8 := rfl
  have hms : milliseconds s.poolLabelsTtlSecs = s.poolLabelsTtlSecs.toNat * 125 * 8 := by
    rw [milliseconds]
    omega
  rw [sentMilliseconds, ← Nat.dvd_iff_mod_eq_zero, hsplit, hms,
    Nat.mul_dvd_mul_iff_right (by decide)]
  exact hodd.dvd_mul_right

/-- What a command that sets labels says of the time that they are kept. -/
def lifetime : List String :=
  if s.poolLabelsTtlSecs = 0 then [] else ["PX", Decimal.textOfNat s.sentMilliseconds]

theorem expiry_record (pool : String) (labels : Labels) :
    (s.labelsCache.record pool labels).expiry =
      if s.poolLabelsTtlSecs = 0 then none else some (milliseconds s.poolLabelsTtlSecs) := by
  have hzero : milliseconds s.poolLabelsTtlSecs = 0 ↔ s.poolLabelsTtlSecs = 0 := by
    rw [milliseconds, Nat.mul_eq_zero, ← UInt64.toNat_inj]
    simp
  exact if_congr hzero rfl rfl

theorem setsLabels_eq (schema : Schema) (n : ℕ) (x : String × Labels) :
    (s.pipeline n Handler.wired schema).setsLabels x =
      ["SET", x.1, LabelsCache.payload x.2] ++ s.lifetime := by
  show Redis.setCommand (s.labelsCache.record x.1 x.2) = _
  rw [Redis.setCommand, expiry_record, lifetime]
  by_cases h : s.poolLabelsTtlSecs = 0
  · rw [if_pos h, if_pos h]
    rfl
  · rw [if_neg h, if_neg h]
    rfl

end Settings

/-- A monitor that keeps no keys in its own process works with servers alone. These are told to set
the labels of all callbacks that have them written, in order, and nothing else, whatever they reply.
Without a time to expire none is sent along. With one it is sent as milliseconds, of which only what
a word of 64 bits holds is left: they are a thousand times the seconds just if so many fit into it,
and more than none just if 2^61 does not divide the seconds. -/
theorem expirations_sent (s : Settings) (schema : Schema) {w : World} (hw : w.IsRemote)
    (os : List Occasion) {i : ℕ} {c : Redis.Connection} (hc : w.backends[i]? = some (.redis c)) :
    let p := s.pipeline w.backends.length Handler.wired schema
    let t := s.poolLabelsTtlSecs.toNat
    (s.redis.mock = false → ∀ peerAt clock,
      World.IsRemote { clock, backends := (s.openBackends peerAt).1 }) ∧
    (∃ c' new, (p.meetAll w os).backends[i]? = some (.redis c') ∧ c'.sent = c.sent ++ new ∧
      Redis.sets new =
        (os.filterMap fun o => p.labelled? o.resource o.callback).map fun x =>
          ["SET", x.1, LabelsCache.payload x.2] ++ s.lifetime) ∧
    (t = 0 → s.lifetime = []) ∧
    (t ≠ 0 → s.lifetime = ["PX", Decimal.textOfNat (1000 * t % 2 ^ 64)]) ∧
    (1000 * t % 2 ^ 64 = 1000 * t ↔ 1000 * t < 2 ^ 64) ∧
    (0 < 1000 * t % 2 ^ 64 ↔ ¬ 2 ^ 61 ∣ t) := by
  intro p t
  have hi : i < w.backends.length := (List.getElem?_eq_some_iff.1 hc).1
  have hzero : t = 0 ↔ s.poolLabelsTtlSecs = 0 := UInt64.toNat_inj (b := 0)
  have hms : Settings.milliseconds s.poolLabelsTtlSecs = 1000 * t := Nat.mul_comm _ _
  have hword : s.sentMilliseconds = 1000 * t % 2 ^ 64 := congrArg (· % 2 ^ 64) hms
  have hfits := s.sentMilliseconds_eq_iff
  have hnone := s.sentMilliseconds_eq_zero_iff
  rw [hword] at hfits hnone
  obtain ⟨c', new, hc', hsent, hnew⟩ := Pipeline.sets_meetAll (p := p) rfl hi hw os hc
  refine ⟨s.isRemote_openBackends, ⟨c', new, hc', hsent, ?_⟩,
    fun ht => if_pos (hzero.1 ht), fun ht => ?_, ?_, ?_⟩
  · rw [hnew]
    exact List.map_congr_left fun x _ => s.setsLabels_eq schema _ x
  · rw [← hword]
    exact if_neg fun h => ht (hzero.2 h)
  · rwa [hms] at hfits
  · rw [Nat.pos_iff_ne_zero]
    exact not_congr hnone

/-! A server that is told the labels of one pool, for a minute and for longer than a word tells. -/

namespace Sample

def keeping (seconds : UInt64) : Settings :=
  { poolLabelsTtlSecs := seconds, redis := { backends := [{}] } }

end Sample

theorem expirations_sent_sample :
    let p := (Sample.keeping 60).pipeline 1 Handler.wired
    Sample.server.IsRemote ∧
      ∃ c new, (p.meetAll Sample.server (Sample.naming "a")).backends[0]? = some (.redis c) ∧
        c.sent = new ∧
        Redis.sets new =
          [["SET", "a", LabelsCache.payload (Sample.pooled "a").labels, "PX", "60000"]] := by
  intro p
  have hw : Sample.server.IsRemote := by
    intro b hb
    obtain rfl := List.mem_singleton.1 hb
    exact ⟨_, rfl⟩
  have htold : ((Sample.naming "a").filterMap fun o => p.labelled? o.resource o.callback).map
      (fun x => ["SET", x.1, LabelsCache.payload x.2] ++ (Sample.keeping 60).lifetime) =
        [["SET", "a", LabelsCache.payload (Sample.pooled "a").labels, "PX", "60000"]] := by
    decide +kernel
  obtain ⟨-, ⟨c, new, hc, hsent, hnew⟩, -⟩ :=
    expirations_sent (Sample.keeping 60) .v1 hw (Sample.naming "a") (i := 0) rfl
  exact ⟨hw, c, new, hc, hsent, hnew.trans htold⟩

/-- After 2^61 seconds labels should be gone; a server is told no milliseconds at all. -/
theorem no_milliseconds_sent :
    let s := Sample.keeping 2305843009213693952
    let p := s.pipeline 1 Handler.wired
    s.validate = .ok () ∧
      ∃ c, (p.meetAll Sample.server (Sample.naming "a")).backends[0]? = some (.redis c) ∧
        Redis.sets c.sent =
          [["SET", "a", LabelsCache.payload (Sample.pooled "a").labels, "PX", "0"]] := by
  intro s p
  refine ⟨rfl, _, rfl, ?_⟩
  decide +kernel

end SessionWatch
