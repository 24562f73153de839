import SessionWatch.Proofs.Accesses
import SessionWatch.Proofs.Holdings
import SessionWatch.Proofs.Provenance
import SessionWatch.Proofs.Relay

/-!
Runs under a wall clock that never goes back. What is remembered was told by the clock, and so was the
time of every task; a stream takes its tasks in the order of their times, under ids that rise and are
never behind them.
-/

namespace SessionWatch

open Session Storage

/-! ### Ids and the rows of a stream -/

namespace Storage.StreamId

instance : LT StreamId where
  lt i j := i.millis < j.millis ∨ i.millis = j.millis ∧ i.seq < j.seq

theorem lt_iff {i j : StreamId} :
    i < j ↔ i.millis < j.millis ∨ i.millis = j.millis ∧ i.seq < j.seq := Iff.rfl

/-- No digit is a dash, so both numbers are read off the text. -/
theorem text_injective : Function.Injective text := by
  intro i j h
  have hdash : ∀ k : StreamId, k.text.toList =
      Decimal.ofNat k.millis.toNat ++ '-' :: Decimal.ofNat k.seq.toNat := by
    intro k
    simp [text, Decimal.textOfNat]
  have hdigits : ∀ (n : ℕ) (rest : List Char),
      (Decimal.ofNat n ++ '-' :: rest).takeWhile Char.isDigit = Decimal.ofNat n := by
    intro n rest
    rw [List.takeWhile_append_of_pos fun c hc => Decimal.isDigit_of_mem_ofNat hc]
    simp
  have hlist := congrArg String.toList h
  rw [hdash, hdash] at hlist
  have hmillis := congrArg (List.takeWhile Char.isDigit) hlist
  rw [hdigits, hdigits] at hmillis
  rw [hmillis, List.append_cancel_left_eq, List.cons.injEq] at hlist
  obtain ⟨m, s⟩ := i
  obtain ⟨m', s'⟩ := j
  rw [mk.injEq]
  exact ⟨UInt64.toNat_inj.1 (Decimal.ofNat_injective hmillis),
    UInt64.toNat_inj.1 (Decimal.ofNat_injective hlist.2)⟩

theorem lt_trans {i j k : StreamId} (h : i < j) (h' : j < k) : i < k := by
  rw [lt_iff] at *
  rcases h with h | ⟨h, hs⟩ <;> rcases h' with h' | ⟨h', hs'⟩
  · exact .inl (UInt64.lt_trans h h')
  · exact .inl (h' ▸ h)
  · exact .inl (h ▸ h')
  · exact .inr ⟨h.trans h', UInt64.lt_trans hs hs'⟩

/-- The next id is a later one as long as the numbers of one millisecond do not run out. -/
theorem lt_next {last : StreamId} (h : last.seq.toNat + 1 < UInt64.size) (now : UInt64) :
    last < last.next now := by
  rw [next, lt_iff]
  split
  · next hnow => exact .inl hnow
  · refine .inr ⟨rfl, UInt64.lt_iff_toNat_lt.2 ?_⟩
    rw [UInt64.toNat_add, UInt64.toNat_one, Nat.mod_eq_of_lt h]
    exact Nat.lt_succ_self _

theorem le_millis_next (last : StreamId) (now : UInt64) : now ≤ (last.next now).millis := by
  rw [next]
  split
  · exact UInt64.le_refl now
  · next hnow => exact UInt64.not_lt.1 hnow

theorem seq_next_le {last : StreamId} (h : last.seq.toNat + 1 < UInt64.size) (now : UInt64) :
    (last.next now).seq.toNat ≤ last.seq.toNat + 1 := by
  rw [next]
  split
  · exact Nat.zero_le _
  · rw [UInt64.toNat_add, UInt64.toNat_one, Nat.mod_eq_of_lt h]

end Storage.StreamId

namespace Session

theorem Task.fields_injective : Function.Injective Task.fields := by
  rintro ⟨k, i, c⟩ ⟨k', i', c'⟩ h
  simp only [Task.fields, List.cons.injEq, Prod.mk.injEq, true_and, and_true] at h
  obtain ⟨hkind, rfl, hcreated⟩ := h
  have hk : k = k' := by
    cases k <;> cases k' <;> first | rfl | exact absurd hkind (by decide)
  have hc : c = c' := by
    have hread := congrArg Decimal.toInt64? (String.ofList_injective hcreated)
    simpa using hread
  rw [hk, hc]

/-- A task in a stream, under its id. -/
structure Row where
  id : StreamId
  task : Task

namespace Row

def entry (r : Row) : Entry := ⟨r.id.text, r.task.fields⟩

/-- A row that comes before another has a smaller id and no later time. -/
def Precedes (r r' : Row) : Prop := r.id < r'.id ∧ r.task.created ≤ r'.task.created

end Row

/-- A task to enqueue a session is not from before its node was provisioned and its pod scheduled. -/
def Task.Timely (t : Task) : Prop :=
  t.kind = .enqueue → ∃ r, Ready.decode? t.info = some r ∧ r.nodeProvisioned ≤ t.created ∧
    r.podScheduled ≤ t.created

end Session

/-! ### The clock -/

namespace Clock

theorem toInt_seconds (c : Clock) : c.seconds.toInt = c.wall.toInt / 1000 := by
  have hlow := Int64.le_toInt c.wall
  have hhigh := Int64.toInt_lt c.wall
  rw [seconds, Int64.toInt_ofInt_of_le] <;> omega

theorem seconds_mono {c d : Clock} (h : c.wall ≤ d.wall) : c.seconds ≤ d.seconds := by
  rw [Int64.le_iff_toInt_le] at *
  rw [toInt_seconds, toInt_seconds]
  omega

theorem seconds_le_millis (c : Clock) : 1000 * c.seconds.toInt ≤ c.millis.toNat := by
  have hhigh := Int64.toInt_lt c.wall
  have hfits : c.wall.toInt.toNat < 2 ^ 64 := by omega
  rw [toInt_seconds, millis, UInt64.toNat_ofNat_of_lt' hfits]
  omega

end Clock

/-- Weather in which the wall clock never goes back. -/
def Weather.Rises (ω : Weather) : Prop := ∀ n, (ω n).clock.wall ≤ (ω (n + 1)).clock.wall

structure Scene.Rises (c : Scene) : Prop where
  start : c.world.clock.wall ≤ (c.weather 0).clock.wall
  ahead : c.weather.Rises

theorem World.clock_under (w : World) (c : Conditions) (s : Step) :
    (w.under c s).1.clock = c.clock := by
  cases s with
  | exchange i r =>
    rw [under_exchange]
    cases w.backends[i]? <;> rfl
  | _ => rfl

theorem Scene.Rises.perform {c : Scene} (h : c.Rises) (s : Step) : (c.perform s).1.Rises := by
  refine ⟨?_, fun n => h.ahead (n + 1)⟩
  show (c.world.under (c.weather 0) s).1.clock.wall ≤ (c.weather 1).clock.wall
  rw [World.clock_under]
  exact h.ahead 0

namespace Plan

variable {α β : Type}

theorem play_rises (p : Plan α) {c : Scene} (h : c.Rises) : (p.play c).1.Rises := by
  induction p generalizing c with
  | done a => exact h
  | step s next ih =>
    have hnext := h.perform s
    rw [play_step]
    rcases hs : c.perform s with ⟨c', _ | x⟩
    · rwa [hs] at hnext
    · rw [hs] at hnext
      exact ih x hnext

/-- As long as the clock does not go back, the plan leaves such a world and such a result. -/
def InTime (p : Plan α) (w : World) (Q : World → Option α → Prop) : Prop :=
  ∀ ω : Weather, Scene.Rises ⟨w, ω⟩ → Q (p.play ⟨w, ω⟩).1.world (p.play ⟨w, ω⟩).2

namespace InTime

variable {p : Plan α} {f : α → Plan β} {w : World}

theorem done {a : α} {Q : World → Option α → Prop} (h : Q w (some a)) :
    (Plan.done a).InTime w Q := fun _ _ => h

theorem mono {Q R : World → Option α → Prop} (h : p.InTime w Q) (hQR : ∀ v x, Q v x → R v x) :
    p.InTime w R :=
  fun ω hω => hQR _ _ (h ω hω)

theorem bind {Q : World → Option α → Prop} {R : World → Option β → Prop} (h : p.InTime w Q)
    (hsome : ∀ v a, Q v (some a) → (f a).InTime v R) (hnone : ∀ v, Q v none → R v none) :
    (p.bind f).InTime w R := by
  intro ω hω
  have hp := h ω hω
  have hrises := p.play_rises hω
  rw [play_bind]
  rcases hplay : p.play ⟨w, ω⟩ with ⟨⟨v, ω'⟩, _ | a⟩
  · rw [hplay] at hp
    exact hnone v hp
  · rw [hplay] at hp hrises
    exact hsome v a hp ω' hrises

end InTime

end Plan

/-! ### What stands in a store by a time -/

namespace Storage

def Command.isAppend : Command → Bool
  | .append .. => true
  | _ => false

namespace Memory

def appends (m : Memory) : ℕ := m.log.countP Command.isAppend

/-- All streams are rows in order, and none of them is from after a time. -/
structure Chronicle (u : Int64) (m : Memory) (rows : String → List Row) : Prop where
  stream : ∀ key, m.stream key = (rows key).map Row.entry
  ordered : ∀ key, (rows key).Pairwise Row.Precedes
  timely : ∀ key, ∀ x ∈ rows key, x.task.Timely ∧ 1000 * x.task.created.toInt ≤ x.id.millis.toNat
  created : ∀ key, ∀ x ∈ rows key, x.task.created ≤ u
  given : ∀ key, ∀ x ∈ rows key, x.id = m.lastId ∨ x.id < m.lastId
  /-- No number is given out without an entry. -/
  counted : m.lastId.seq.toNat ≤ m.appends

/-- A chronicle, as long as the numbers of a millisecond have not run out. -/
def Upto (u : Int64) (m : Memory) : Prop := m.appends < UInt64.size → ∃ rows, m.Chronicle u rows

variable {u : Int64} {m m' : Memory}

theorem Upto.mono {t : Int64} (h : m.Upto u) (hut : u ≤ t) : m.Upto t := by
  intro hcount
  obtain ⟨rows, hrows⟩ := h hcount
  exact ⟨rows, { hrows with
    created := fun key x hx => Int64.le_trans (hrows.created key x hx) hut }⟩

theorem Upto.of_eq (h : m.Upto u) (hstreams : m'.streams = m.streams)
    (hlast : m'.lastId = m.lastId) (happends : m'.appends = m.appends) : m'.Upto u := by
  intro hcount
  rw [happends] at hcount
  obtain ⟨rows, hrows⟩ := h hcount
  have hstream : ∀ key, m'.stream key = m.stream key := fun key => by
    rw [Memory.stream, hstreams, Memory.stream]
  exact ⟨rows,
    { hrows with
      stream := fun key => (hstream key).trans (hrows.stream key)
      given := by simpa only [hlast] using hrows.given
      counted := by simpa only [hlast, happends] using hrows.counted }⟩

theorem appends_append (m : Memory) (now : UInt64) (key id : String) (fields : Fields) :
    (m.append now key id fields).1.appends = m.appends + 1 := by
  simp [appends, append, record, Command.isAppend]

theorem Upto.append {c : Clock} {t : Task} (h : m.Upto t.created) (hnow : t.created ≤ c.seconds)
    (ht : t.Timely) (key : String) :
    (m.append c.millis key automaticId t.fields).1.Upto t.created := by
  intro hcount
  rw [appends_append] at hcount
  obtain ⟨rows, hrows⟩ := h (by omega)
  have hroom : m.lastId.seq.toNat + 1 < UInt64.size := by
    have := hrows.counted
    omega
  let row : Row := ⟨m.lastId.next c.millis, t⟩
  have hlater : m.lastId < row.id := StreamId.lt_next hroom c.millis
  have hbehind : ∀ key, ∀ x ∈ rows key, x.id < row.id := by
    intro key x hx
    rcases hrows.given key x hx with heq | hlt
    · exact heq ▸ hlater
    · exact StreamId.lt_trans hlt hlater
  have hmillis : 1000 * t.created.toInt ≤ row.id.millis.toNat := by
    have hseconds := Int64.le_iff_toInt_le.1 hnow
    have hclock := c.seconds_le_millis
    have hid : c.millis.toNat ≤ row.id.millis.toNat :=
      UInt64.le_iff_toNat_le.1 (StreamId.le_millis_next m.lastId c.millis)
    omega
  let rows' : String → List Row := fun k => rows k ++ if key = k then [row] else []
  have hmem : ∀ k, ∀ x ∈ rows' k, x ∈ rows k ∨ x = row := by
    intro k x hx
    rcases List.mem_append.1 hx with hx | hx
    · exact .inl hx
    · split at hx
      · exact .inr (List.mem_singleton.1 hx)
      · cases hx
  refine ⟨rows', fun k => ?_, fun k => ?_, fun k x hx => ?_, fun k x hx => ?_, fun k x hx => ?_, ?_⟩
  · by_cases hk : key = k
    · subst hk
      simp [Memory.append, Memory.stream, record, rows', row, Row.entry, ← hrows.stream]
    · have hkept := hrows.stream k
      simp only [Memory.stream] at hkept
      simp [Memory.append, Memory.stream, record, rows', hk, hkept]
  · refine List.pairwise_append.2 ⟨hrows.ordered k, ?_, fun x hx y hy => ?_⟩
    · split
      · exact List.pairwise_singleton _ _
      · exact .nil
    · obtain rfl : y = row := by
        split at hy
        · exact List.mem_singleton.1 hy
        · cases hy
      exact ⟨hbehind k x hx, hrows.created k x hx⟩
  · rcases hmem k x hx with hx | rfl
    · exact hrows.timely k x hx
    · exact ⟨ht, hmillis⟩
  · rcases hmem k x hx with hx | rfl
    · exact hrows.created k x hx
    · exact Int64.le_refl _
  · rcases hmem k x hx with hx | rfl
    · exact .inr (hbehind k x hx)
    · exact .inl rfl
  · rw [appends_append]
    exact (StreamId.seq_next_le hroom c.millis).trans (Nat.succ_le_succ hrows.counted)

end Memory

/-- What it appends, if it appends anything, is a task of the present under the next id. -/
def Request.Fits (u : Int64) : Request → Prop
  | .append _ id fields => id = automaticId ∧ ∃ t : Task, fields = t.fields ∧ t.created = u ∧ t.Timely
  | _ => True

namespace Memory

variable {u : Int64} {m : Memory}

theorem Upto.record (h : m.Upto u) {k : Command} (hk : k.isAppend = false) : (m.record k).Upto u :=
  h.of_eq rfl rfl (by simp [appends, Memory.record, hk])

theorem Upto.putAll (h : m.Upto u) (c : Clock) (rs : List Record) : (putAll c m rs).Upto u := by
  have hnone : (rs.map Record.command).countP Command.isAppend = 0 := by
    simp [List.countP_eq_zero, Record.command, Command.isAppend]
  rw [putAll_eq]
  exact h.of_eq rfl rfl (by simp [appends, List.countP_append, hnone])

theorem Upto.exchange {c : Clock} (h : m.Upto u) (hnow : u ≤ c.seconds) {r : Request}
    (hr : r.Fits u) : (m.exchange c r).1.Upto u := by
  have hout := m.exchange_outcome c r
  generalize m.exchange c r = x at hout
  cases hout with
  | refused e hf => exact h
  | time => exact h.record rfl
  | ping => exact h.record rfl
  | append key id fields =>
    obtain ⟨rfl, t, rfl, rfl, ht⟩ := hr
    exact h.append hnow ht key
  | nothing set => exact h
  | @index set rs hne hreach =>
    have hindex := (h.putAll c rs).record (k := .index set (rs.map (·.key))) rfl
    exact hindex.of_eq rfl rfl rfl
  | broken set done r rest => exact h.putAll c done

theorem time_of_exchange {c : Clock} {t : Int64} (h : (m.exchange c .time).2 = some (.ok t)) :
    t = c.seconds := by
  have hout := m.exchange_outcome c .time
  generalize m.exchange c .time = x at h hout
  cases hout with
  | refused e hf => cases h
  | time =>
    cases h
    rfl

end Memory

end Storage

namespace World

/-- What is remembered and what stands in the backends, all of them stores in memory, is from no later
than a time that has come. -/
structure Within (u : Int64) (w : World) : Prop where
  come : u ≤ w.clock.seconds
  times : ∀ key t, w.cache.get? key = some t → t ≤ u
  stores : ∀ b ∈ w.backends, ∃ m, b = .memory m ∧ m.Upto u

namespace Within

variable {u t : Int64} {w : World}

theorem mono (h : w.Within u) (hut : u ≤ t) (ht : t ≤ w.clock.seconds) : w.Within t where
  come := ht
  times key x hx := Int64.le_trans (h.times key x hx) hut
  stores b hb := by
    obtain ⟨m, rfl, hm⟩ := h.stores b hb
    exact ⟨m, rfl, hm.mono hut⟩

theorem now (h : w.Within u) : w.Within w.clock.seconds := h.mono h.come (Int64.le_refl _)

end Within

end World

namespace Step

/-- What it appends or remembers is from no later than the time. -/
def Fits (u : Int64) : Step → Prop
  | .exchange _ r => r.Fits u
  | .remember _ t => t ≤ u
  | _ => True

theorem onCache_within {u : Int64} {s : Step} (hs : s.Fits u) {cache : Table Int64}
    (h : ∀ key t, cache.get? key = some t → t ≤ u) {key : String} {t : Int64}
    (ht : (s.onCache cache).get? key = some t) : t ≤ u := by
  cases s with
  | remember k x =>
    rw [onCache, Table.get?_insert] at ht
    split at ht
    · cases ht
      exact hs
    · exact h key t ht
  | forget k =>
    rw [onCache, Table.get?_erase] at ht
    split at ht
    · cases ht
    · exact h key t ht
  | _ => exact h key t ht

theorem onBackend_upto {u : Int64} {c : Conditions} {s : Step} (hs : s.Fits u)
    (hnow : u ≤ c.clock.seconds) {b : Backend} (i : ℕ) (h : ∃ m, b = .memory m ∧ m.Upto u) :
    ∃ m, s.onBackend c i b = .memory m ∧ m.Upto u := by
  cases s with
  | exchange k r =>
    rw [onBackend]
    split
    · obtain ⟨m, rfl, hm⟩ := h
      let start : Memory := { m with failing := c.refused k }
      have hstart : start.Upto u := hm.of_eq rfl rfl rfl
      exact ⟨_, rfl, hstart.exchange hnow hs⟩
    · exact h
  | _ => exact h

end Step

namespace World.Within

variable {u t : Int64} {w : World} {c : Conditions}

/-- A step that fits leaves the world from before the time. -/
theorem under (h : w.Within u) (hnow : w.clock.wall ≤ c.clock.wall) {s : Step} (hs : s.Fits u) :
    (w.under c s).1.Within u := by
  have hcome : u ≤ c.clock.seconds := Int64.le_trans h.come (Clock.seconds_mono hnow)
  refine ⟨by rwa [clock_under], fun key t ht => ?_, fun b hb => ?_⟩
  · rw [cache_under] at ht
    exact s.onCache_within hs h.times ht
  · obtain ⟨i, hi⟩ := List.getElem?_of_mem hb
    rw [backends_under] at hi
    obtain ⟨b', hb', rfl⟩ := Option.map_eq_some_iff.1 hi
    exact s.onBackend_upto hs hcome i (h.stores b' (List.mem_of_getElem? hb'))

theorem time_told (h : w.Within u) {i : ℕ} (ht : (w.under c (.exchange i .time)).2 = some (.ok t)) :
    t = c.clock.seconds := by
  rw [under_exchange] at ht
  cases hi : w.backends[i]? with
  | none => simp [hi] at ht
  | some b =>
    obtain ⟨m, rfl, -⟩ := h.stores b (List.mem_of_getElem? hi)
    rw [hi] at ht
    exact Memory.time_of_exchange (m := { m with failing := c.refused i }) ht

end World.Within

namespace Plan

variable {u : Int64} {w : World}

theorem once_inTime (h : w.Within u) {s : Step} (hs : s.Fits u) :
    (once s).InTime w fun v _ => v.Within u := by
  intro ω hω
  rw [play_once, Scene.perform_eq]
  exact h.under hω.start hs

theorem consult_inTime (h : w.Within u) (key : String) :
    (consult key).InTime w fun v x => v.Within u ∧ x = some (w.cache.get? key) :=
  fun ω hω => ⟨once_inTime h (s := .consult key) trivial ω hω, rfl⟩

end Plan

namespace Storage

variable {u : Int64} {w : World}

theorem askEach_inTime {r : Request} (hr : r.Fits u) (t : Tally r.Answer) (is : List ℕ)
    (h : w.Within u) : (askEach r t is).InTime w fun v _ => v.Within u := by
  induction is generalizing t w with
  | nil => exact .done h
  | cons i is ih =>
    exact (Plan.once_inTime h (s := .exchange i r) hr).bind (fun v a hv => ih (t.record a) hv)
      fun v hv => hv

theorem fanOut_inTime {r : Request} (hr : r.Fits u) (n : ℕ) (h : w.Within u) :
    (fanOut n r).InTime w fun v _ => v.Within u :=
  (askEach_inTime hr _ _ h).bind (fun _ _ hv => .done hv) fun _ hv => hv

/-- The last time in a tally without failures is that of the clock. -/
def Tally.TellsTime (t : Tally Int64) (w : World) : Prop :=
  t.failures = none → ∀ x, t.last = some x → x = w.clock.seconds

theorem askEach_tellsTime (t : Tally Int64) (is : List ℕ) (h : w.Within u) (ht : t.TellsTime w) :
    (askEach .time t is).InTime w fun v x => v.Within u ∧ ∀ t', x = some t' → t'.TellsTime v := by
  induction is generalizing t w with
  | nil =>
    refine .done ⟨h, ?_⟩
    rintro t' ⟨⟩
    exact ht
  | cons i is ih =>
    have hask : (Plan.exchange i .time).InTime w fun v x =>
        v.Within u ∧ ∀ a, x = some (.ok a) → a = v.clock.seconds := by
      intro ω hω
      refine ⟨Plan.once_inTime h (s := .exchange i .time) trivial ω hω, fun a ha => ?_⟩
      rw [Plan.exchange, Plan.play_once, Scene.perform_eq] at ha ⊢
      rw [World.clock_under]
      exact h.time_told ha
    refine hask.bind (fun v a hv => ih _ hv.1 ?_) fun v hv => ⟨hv.1, nofun⟩
    cases a with
    | ok a =>
      rintro - x ⟨⟩
      exact hv.2 a rfl
    | error r =>
      intro hnone
      simp only [Tally.record] at hnone
      split at hnone <;> cases hnone

theorem time_inTime (n : ℕ) (h : w.Within u) :
    (fanOut n .time).InTime w fun v x =>
      v.Within u ∧ ∀ t, x = some (.ok t) → u ≤ t ∧ v.Within t := by
  refine (askEach_tellsTime { total := n } (List.range n) h nofun).bind (fun v t hv => .done ?_)
    fun v hv => ⟨hv.1, nofun⟩
  obtain ⟨hv, htells⟩ := hv
  refine ⟨hv, fun x hx => ?_⟩
  have htime : x = v.clock.seconds := by
    simp only [Tally.verdict, Option.some.injEq] at hx
    split at hx
    · cases hx
    · next hnone =>
      split at hx
      · next y hlast =>
        cases hx
        exact htells t rfl hnone _ hlast
      · cases hx
  subst htime
  exact ⟨hv.come, hv.now⟩

end Storage

/-! ### Handlers and runs -/

/-- Nothing in the world is from later than now. -/
def World.Settled (w : World) : Prop := w.Within w.clock.seconds

theorem World.Within.settled {u : Int64} {w : World} (h : w.Within u) : w.Settled := h.now

namespace Session

variable {u : Int64} {w : World}

theorem push_inTime (n : ℕ) (stream : String) {kind : TaskKind} {info : String} (h : w.Within u)
    (hinfo : ∀ t, u ≤ t → (Task.mk kind info t).Timely) :
    (push n stream kind info).InTime w fun v _ => v.Settled := by
  refine (time_inTime n h).bind (fun v a hv => ?_) fun v hv => hv.1.settled
  cases a with
  | error r => exact .done hv.1.settled
  | ok t =>
    obtain ⟨hut, hvt⟩ := hv.2 t rfl
    have hfits : (Request.append stream automaticId (Task.mk kind info t).fields).Fits t :=
      ⟨rfl, _, rfl, rfl, hinfo t hut⟩
    refine (fanOut_inTime hfits n hvt).bind (fun z b hz => ?_) fun z hz => hz.settled
    cases b with
    | error r => exact .done hz.settled
    | ok id => exact .done hz.settled

theorem setDeletable_inTime (n : ℕ) (streams : Streams) (d : Deletable) (h : w.Settled) :
    (setDeletable n streams d).InTime w fun v _ => v.Settled := by
  have htimely : ∀ t, w.clock.seconds ≤ t → (Task.mk .delete d.encode t).Timely :=
    fun t _ hkind => by cases hkind
  refine (push_inTime n streams.delete h htimely).bind (fun v a hv => ?_) fun v hv => hv
  cases a with
  | error r => exact .done hv
  | ok id =>
    refine (Plan.once_inTime hv (s := .forget (podKey d.sessionId)) trivial).bind
      (fun z _ hz => .done hz.settled) fun z hz => hz.settled

theorem timeUnder_inTime (key : String) (h : w.Within u) :
    (timeUnder key).InTime w fun v x => v.Within u ∧ ∀ t, x = some (.ok t) → t ≤ u := by
  refine (Plan.consult_inTime h key).bind (fun v a hv => ?_) fun v hv => ⟨hv.1, nofun⟩
  obtain ⟨hv, ha⟩ := hv
  cases a with
  | none => exact .done ⟨hv, nofun⟩
  | some t =>
    refine .done ⟨hv, ?_⟩
    rintro t ⟨⟩
    exact h.times key t (Option.some.inj ha).symm

end Session

namespace Workplace

variable {w : World} (p : Workplace)

theorem note_inTime {u : Int64} (h : w.Within u) (n : Note) :
    (Plan.note n).InTime w fun v _ => v.Within u :=
  Plan.once_inTime h (s := .note n) trivial

theorem remember_inTime {t : Int64} (h : w.Within t) (c : Call) (key : String) :
    ((Plan.note (.called c)).bind fun _ => (Plan.remember key t).bind fun _ =>
      .done (.ok ())).InTime w fun v (_ : Option (Result Unit)) => v.Settled := by
  refine (note_inTime h _).bind (fun v _ hv => ?_) fun v hv => hv.settled
  exact (Plan.once_inTime hv (s := .remember key t) (Int64.le_refl t)).bind
    (fun z _ hz => .done hz.settled) fun z hz => hz.settled

theorem recordProvision_inTime (node : Node) (h : w.Settled) :
    (p.recordProvision node).InTime w fun v _ => v.Settled := by
  refine (time_inTime p.backends h).bind (fun v a hv => ?_) fun v hv => hv.1.settled
  cases a with
  | error r => exact .done hv.1.settled
  | ok t => exact remember_inTime (hv.2 t rfl).2 _ _

theorem recordSchedule_inTime (pod : Pod) (h : w.Settled) :
    (p.recordSchedule pod).InTime w fun v _ => v.Settled := by
  refine (time_inTime p.backends h).bind (fun v a hv => ?_) fun v hv => hv.1.settled
  cases a with
  | error r => exact .done hv.1.settled
  | ok t => exact remember_inTime (hv.2 t rfl).2 _ _

theorem updateLabels_inTime (node : Node) (h : w.Settled) :
    (p.labelsCache.update p.backends node).InTime w fun v _ => v.Settled := by
  unfold LabelsCache.update
  split
  · exact .done h
  · next pool _ =>
    have hfits : Request.Fits w.clock.seconds
        (.index p.labelsCache.setKey [p.labelsCache.record pool node.labels]) := trivial
    refine (fanOut_inTime hfits p.backends h).bind (fun v a hv => ?_) fun v hv => hv.settled
    cases a with
    | error r => exact .done hv.settled
    | ok n => exact .done hv.settled

theorem deleteSession_inTime (pod : Pod) (h : w.Settled) :
    (p.deleteSession pod).InTime w fun v _ => v.Settled := by
  refine (note_inTime h _).bind (fun v _ hv => ?_) fun v hv => hv.settled
  refine (setDeletable_inTime p.backends p.streams _ hv.settled).bind (fun z a hz => ?_)
    fun z hz => hz
  cases a with
  | error r => exact .done hz
  | ok id => exact .done hz

/-- Both times are looked up before the task is stamped, so they are not later than its time. -/
theorem enqueueSession_inTime (pod : Pod) (h : w.Settled) :
    (p.enqueueSession pod).InTime w fun v _ => v.Settled := by
  refine (note_inTime h _).bind (fun v _ hv => ?_) fun v hv => hv.settled
  refine (timeUnder_inTime _ hv).bind (fun v a hv => ?_) fun v hv => hv.1.settled
  cases a with
  | error r => exact .done hv.1.settled
  | ok tn =>
    have htn := hv.2 tn rfl
    refine (note_inTime hv.1 _).bind (fun v _ hv => ?_) fun v hv => hv.settled
    refine (timeUnder_inTime _ hv).bind (fun v a hv => ?_) fun v hv => hv.1.settled
    cases a with
    | error r => exact .done hv.1.settled
    | ok tp =>
      have htp := hv.2 tp rfl
      refine (note_inTime hv.1 _).bind (fun v _ hv => ?_) fun v hv => hv.settled
      have htimely : ∀ t, w.clock.seconds ≤ t → (Task.mk .enqueue
          (Ready.mk pod.sessionId pod.nodeName tn tp pod.ip).encode t).Timely := fun t ht _ =>
        ⟨_, Ready.decode?_encode _, Int64.le_trans htn ht, Int64.le_trans htp ht⟩
      refine (push_inTime p.backends p.streams.enqueue hv htimely).bind (fun z a hz => ?_)
        fun z hz => hz
      cases a with
      | error r => exact .done hz
      | ok id => exact .done hz

theorem attend_inTime (f : Fact) (h : w.Settled) :
    (p.attend f).InTime w fun v _ => v.Settled := by
  cases f with
  | node change node =>
    cases change with
    | recordProvision => exact p.recordProvision_inTime node h
    | updateLabels => exact p.updateLabels_inTime node h
    | _ => exact .done h
  | pod change pod =>
    cases change with
    | recordSchedule => exact p.recordSchedule_inTime pod h
    | delete => exact p.deleteSession_inTime pod h
    | ready => exact p.enqueueSession_inTime pod h
    | add => exact .done h
  | nodeWatchFailed message => exact .done h
  | podWatchFailed message => exact .done h

theorem relay_inTime (fs : List Fact) (h : w.Settled) :
    (p.relay fs).InTime w fun v _ => v.Settled := by
  induction fs generalizing w with
  | nil => exact .done h
  | cons f fs ih =>
    refine (p.attend_inTime f h).bind (fun v x hv => ?_) fun v hv => hv
    cases x with
    | ok u => exact ih hv
    | error r => exact .done hv

theorem afterStamps_inTime {α : Type} {q : Plan α} {Q : World → Option α → Prop}
    (hq : ∀ w : World, w.Settled → q.InTime w Q) (n : ℕ) (h : w.Settled) :
    (q.afterStamps n).InTime w Q := by
  induction n generalizing w with
  | zero => exact hq w h
  | succ n ih =>
    intro ω hω
    have hstamp : (World.under w (ω 0) .stamp).1.Settled :=
      (World.Within.under h hω.start (s := .stamp) trivial).settled
    exact ih hstamp _ (hω.perform .stamp)

theorem relayEach_inTime (fss : List (List Fact)) (h : w.Settled) :
    (p.relayEach fss).InTime w fun v _ => v.Settled := by
  induction fss generalizing w with
  | nil => exact .done h
  | cons fs fss ih =>
    exact afterStamps_inTime (fun v hv => (p.relay_inTime fs hv).bind (fun z _ hz => ih hz)
      fun z hz => hz) fs.length h

end Workplace

namespace Pipeline

variable {p : Pipeline} {w : World}

def Rising (p : Pipeline) : World → List Occasion → Prop
  | _, [] => True
  | w, o :: os => Scene.Rises ⟨w, o.weather⟩ ∧ Rising p (p.meet w o) os

theorem settled_meetAll (hp : p.subscriptions = Handler.wired) {os : List Occasion}
    (hrising : p.Rising w os) (h : w.Settled) : (p.meetAll w os).Settled := by
  induction os generalizing w with
  | nil => exact h
  | cons o os ih =>
    refine ih hrising.2 ?_
    rw [meet, on_eq_relayEach hp]
    exact p.workplace.relayEach_inTime _ h o.weather hrising.1

end Pipeline

/-- Nothing is remembered, and all backends are stores in memory that nobody has asked anything. -/
structure World.IsNew (w : World) : Prop where
  cache : w.cache = ∅
  backends : ∀ b ∈ w.backends, ∃ name failing, b = .memory { name, failing }

theorem World.IsNew.settled {w : World} (h : w.IsNew) : w.Settled where
  come := Int64.le_refl _
  times key t ht := by simp [h.cache] at ht
  stores b hb := by
    obtain ⟨name, failing, rfl⟩ := h.backends b hb
    exact ⟨_, rfl, fun _ => ⟨fun _ => [], fun _ => rfl, fun _ => .nil, nofun, nofun, nofun,
      Nat.zero_le _⟩⟩

/-- As long as the wall clock does not go back, every stream of a backend that has appended fewer than
2^64 times is made of tasks whose times never fall, under ids that rise and are not behind those times;
and no task to enqueue a session is from before its node was provisioned or its pod scheduled. -/
theorem streams_keep_time (s : Settings) (schema : Cluster.Schema) (n : ℕ) {w : World}
    (hw : w.IsNew) (os : List Occasion)
    (hrising : (s.pipeline n Handler.wired schema).Rising w os) {i : ℕ} {m : Memory}
    (hm : ((s.pipeline n Handler.wired schema).meetAll w os).backends[i]? = some (.memory m))
    (hcount : m.appends < UInt64.size) (key : String) :
    ∃ rows : List Row, m.stream key = rows.map Row.entry ∧ rows.Pairwise Row.Precedes ∧
      ∀ x ∈ rows, 1000 * x.task.created.toInt ≤ x.id.millis.toNat ∧
        (x.task.kind = .enqueue → ∃ r, Ready.decode? x.task.info = some r ∧
          r.nodeProvisioned ≤ x.task.created ∧ r.podScheduled ≤ x.task.created) := by
  have hsettled := Pipeline.settled_meetAll rfl hrising hw.settled
  obtain ⟨m', hmem, hupto⟩ := hsettled.stores _ (List.mem_of_getElem? hm)
  obtain rfl : m = m' := Backend.memory.inj hmem
  obtain ⟨rows, hrows⟩ := hupto hcount
  exact ⟨rows key, hrows.stream key, hrows.ordered key, fun x hx =>
    ⟨(hrows.timely key x hx).2, (hrows.timely key x hx).1⟩⟩

theorem streams_keep_time_sample :
    let p := Settings.pipeline {} 2 Handler.wired
    Sample.world.IsNew ∧ p.Rising Sample.world Sample.enqueuing ∧
      ∃ m, (p.meetAll Sample.world Sample.enqueuing).backends[1]? = some (.memory m) ∧
        m.appends < UInt64.size ∧ (m.stream (Settings.enqueueStream {})).length = 1 ∧
        ∃ rows : List Row, m.stream (Settings.enqueueStream {}) = rows.map Row.entry ∧
          rows.Pairwise Row.Precedes := by
  intro p
  have hw : Sample.world.IsNew := ⟨rfl, by simp [Sample.world]⟩
  have hrising : p.Rising Sample.world Sample.enqueuing :=
    ⟨⟨by decide +kernel, fun _ => Int64.le_refl _⟩, ⟨by decide +kernel, fun _ => Int64.le_refl _⟩,
      ⟨by decide +kernel, fun _ => Int64.le_refl _⟩, trivial⟩
  have hstate : ((p.meetAll Sample.world Sample.enqueuing).backends[1]?.bind (·.memory?)).map
      (fun m => (m.appends, (m.stream (Settings.enqueueStream {})).length)) = some (1, 1) := by
    decide +kernel
  obtain ⟨m, hmemory, hcounts⟩ := Option.map_eq_some_iff.1 hstate
  obtain ⟨b, hb, hbm⟩ := Option.bind_eq_some_iff.1 hmemory
  obtain rfl : b = .memory m := by
    cases b with
    | memory m' => exact congrArg Backend.memory (Option.some.inj hbm)
    | redis c => cases hbm
  obtain ⟨happends, hlength⟩ := Prod.mk.inj hcounts
  have hcount : m.appends < UInt64.size := by rw [happends]; decide
  obtain ⟨rows, hrows, hordered, -⟩ := streams_keep_time {} .v1 2 hw _ hrising hb hcount
    (Settings.enqueueStream {})
  exact ⟨hw, hrising, m, hb, hcount, hlength, rows, hrows, hordered⟩

end SessionWatch
