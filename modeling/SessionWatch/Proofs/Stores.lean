import SessionWatch.Proofs.FanOut

/-!
Stores in memory side by side. Of a store, appending touches the streams and indexing the strings
and sets; a request goes by what it touches, so requests that touch different parts may be made in
either order.
-/

namespace SessionWatch

namespace Storage

/-- Neither strings nor sets are written. -/
def Request.leavesKeys : Request → Bool
  | .index .. => false
  | _ => true

/-- No stream is written, and no id is given out. -/
def Request.leavesStreams : Request → Bool
  | .append .. => false
  | _ => true

theorem Request.leaves (r : Request) : r.leavesKeys = true ∨ r.leavesStreams = true := by
  cases r with
  | index set rs => exact .inr rfl
  | _ => exact .inl rfl

namespace Memory

/-- Two stores that hold the same; they may refuse different operations and have different logs. -/
structure Alike (m m' : Memory) : Prop where
  name : m.name = m'.name
  strings : m.strings = m'.strings
  sets : m.sets = m'.sets
  streams : m.streams = m'.streams
  lastId : m.lastId = m'.lastId

theorem Alike.refl (m : Memory) : m.Alike m := ⟨rfl, rfl, rfl, rfl, rfl⟩

theorem Alike.symm {m m' : Memory} (h : m.Alike m') : m'.Alike m :=
  ⟨h.name.symm, h.strings.symm, h.sets.symm, h.streams.symm, h.lastId.symm⟩

theorem Alike.trans {m m' m'' : Memory} (h : m.Alike m') (h' : m'.Alike m'') : m.Alike m'' :=
  ⟨h.name.trans h'.name, h.strings.trans h'.strings, h.sets.trans h'.sets,
    h.streams.trans h'.streams, h.lastId.trans h'.lastId⟩

theorem fails_eq {m m' : Memory} (h : m'.failing = m.failing) (r : Request) :
    m'.fails r = m.fails r := by
  simp [fails, h]

theorem exchange_of_idle {m : Memory} {r : Request} (c : Clock)
    (h : m.fails r = true ∨ r.leavesKeys = true ∧ r.leavesStreams = true) :
    ∃ a, ∀ m' : Memory, m'.name = m.name → m'.failing = m.failing →
      ∃ log, m'.exchange c r = ({ m' with log := log }, a) := by
  cases hf : m.fails r with
  | true =>
    refine ⟨some (.error ((failure m.name r).attach .failingMode)),
      fun m' hname hfailing => ⟨m'.log, ?_⟩⟩
    rw [exchange_of_fails c ((fails_eq hfailing r).trans hf), ← hname]
  | false =>
    obtain ⟨hkeys, hstreams⟩ := h.resolve_left (by simp [hf])
    have hserve : ∀ m' : Memory, m'.failing = m.failing → m'.exchange c r = m'.serve c r :=
      fun m' hfailing => exchange_of_not_fails c ((fails_eq hfailing r).trans hf)
    cases r with
    | time =>
      exact ⟨some (.ok c.seconds), fun m' _ hfailing =>
        ⟨m'.log ++ [Command.time], hserve m' hfailing⟩⟩
    | ping =>
      exact ⟨some (.ok "PONG"), fun m' _ hfailing =>
        ⟨m'.log ++ [Command.ping], hserve m' hfailing⟩⟩
    | append stream id fields => cases hstreams
    | index set rs => cases hkeys

theorem exchange_of_leavesKeys {r : Request} (hr : r.leavesKeys = true) (c : Clock) (m : Memory) :
    ∃ streams last a, ∀ m' : Memory, m'.name = m.name → m'.failing = m.failing →
      m'.streams = m.streams → m'.lastId = m.lastId →
      ∃ log, m'.exchange c r = ({ m' with streams := streams, lastId := last, log := log }, a) := by
  by_cases hidle : m.fails r = true ∨ r.leavesStreams = true
  · obtain ⟨a, h⟩ := exchange_of_idle c (hidle.imp_right fun hs => ⟨hr, hs⟩)
    refine ⟨m.streams, m.lastId, a, fun m' hname hfailing hstreams hlast => ?_⟩
    obtain ⟨log, hlog⟩ := h m' hname hfailing
    exact ⟨log, by rw [hlog, ← hstreams, ← hlast]⟩
  · obtain ⟨hf, hwrites⟩ := not_or.1 hidle
    cases r with
    | append stream id fields =>
      refine ⟨(m.append c.millis stream id fields).1.streams,
        (m.append c.millis stream id fields).1.lastId,
        some (.ok (m.append c.millis stream id fields).2),
        fun m' _ hfailing hstreams hlast => ⟨m'.log ++ [.append stream fields], ?_⟩⟩
      rw [exchange_of_not_fails c ((fails_eq hfailing _).trans (by simpa using hf))]
      simp [serve, append, record, Memory.stream, hstreams, hlast]
    | _ => exact absurd rfl hwrites

theorem writeAll_eq (c : Clock) (rs : List Record) (strings : Table Stored) :
    ∃ written ok, ∀ m : Memory, m.strings = strings →
      ∃ log, m.writeAll c rs = ({ m with strings := written, log := log }, ok) := by
  induction rs generalizing strings with
  | nil => exact ⟨strings, true, fun m hm => ⟨m.log, by rw [← hm]; rfl⟩⟩
  | cons r rs ih =>
    have hput : ∀ deadline, ∃ written ok, ∀ m : Memory, m.strings = strings →
        ∃ log, ({ m.record (.set r.key r.payload r.expiry) with
            strings := m.strings.insert r.key ⟨r.payload, deadline⟩ } : Memory).writeAll c rs =
          ({ m with strings := written, log := log }, ok) := by
      intro deadline
      obtain ⟨written, ok, h⟩ := ih (strings.insert r.key ⟨r.payload, deadline⟩)
      refine ⟨written, ok, fun m hm => ?_⟩
      obtain ⟨log, hlog⟩ := h { m.record (.set r.key r.payload r.expiry) with
        strings := m.strings.insert r.key ⟨r.payload, deadline⟩ } (by rw [hm])
      exact ⟨log, hlog⟩
    cases hexpiry : r.expiry with
    | none =>
      obtain ⟨written, ok, h⟩ := hput none
      refine ⟨written, ok, fun m hm => ?_⟩
      obtain ⟨log, hlog⟩ := h m hm
      exact ⟨log, by simpa [writeAll, write?, hexpiry] using hlog⟩
    | some ms =>
      cases hdeadline : c.deadline? ms with
      | none =>
        refine ⟨strings, false, fun m hm => ⟨m.log, ?_⟩⟩
        simp [writeAll, write?, hexpiry, hdeadline, ← hm]
      | some d =>
        obtain ⟨written, ok, h⟩ := hput (some d)
        refine ⟨written, ok, fun m hm => ?_⟩
        obtain ⟨log, hlog⟩ := h m hm
        exact ⟨log, by simpa [writeAll, write?, hexpiry, hdeadline] using hlog⟩

theorem exchange_of_leavesStreams {r : Request} (hr : r.leavesStreams = true) (c : Clock)
    (m : Memory) : ∃ strings sets a, ∀ m' : Memory, m'.name = m.name → m'.failing = m.failing →
      m'.strings = m.strings → m'.sets = m.sets →
      ∃ log, m'.exchange c r = ({ m' with strings := strings, sets := sets, log := log }, a) := by
  by_cases hidle : m.fails r = true ∨ r.leavesKeys = true
  · obtain ⟨a, h⟩ := exchange_of_idle c (hidle.imp_right fun hk => ⟨hk, hr⟩)
    refine ⟨m.strings, m.sets, a, fun m' hname hfailing hstrings hsets => ?_⟩
    obtain ⟨log, hlog⟩ := h m' hname hfailing
    exact ⟨log, by rw [hlog, ← hstrings, ← hsets]⟩
  · obtain ⟨hf, hwrites⟩ := not_or.1 hidle
    have hserve : ∀ m' : Memory, m'.failing = m.failing → m'.exchange c r = m'.serve c r :=
      fun m' hfailing =>
        exchange_of_not_fails c ((fails_eq hfailing r).trans (by simpa using hf))
    cases r with
    | index set rs =>
      cases rs with
      | nil =>
        refine ⟨m.strings, m.sets, some (.ok 0),
          fun m' _ hfailing hstrings hsets => ⟨m'.log, ?_⟩⟩
        rw [hserve m' hfailing, ← hstrings, ← hsets]
        rfl
      | cons r rs =>
        obtain ⟨written, ok, h⟩ := writeAll_eq c (r :: rs) m.strings
        let added := addKeys (m.members set) ((r :: rs).map (·.key))
        cases ok with
        | false =>
          refine ⟨written, m.sets, none, fun m' _ hfailing hstrings hsets => ?_⟩
          obtain ⟨log, hlog⟩ := h m' hstrings
          exact ⟨log, by rw [hserve m' hfailing, ← hsets]; simp only [serve, hlog]⟩
        | true =>
          refine ⟨written, m.sets.insert set added.1, some (.ok (.ofNat added.2)),
            fun m' _ hfailing hstrings hsets => ?_⟩
          obtain ⟨log, hlog⟩ := h m' hstrings
          refine ⟨log ++ [.index set ((r :: rs).map (·.key))], ?_⟩
          rw [hserve m' hfailing]
          simp [serve, hlog, addMembers, record, members, hsets, added]
    | _ => exact absurd rfl hwrites

def asked (m : Memory) (i : ℕ) (c : Conditions) (r : Request) : Memory × Option (Result r.Answer) :=
  ({ m with failing := c.refused i } : Memory).exchange c.clock r

theorem Alike.asked {m m' : Memory} (h : m.Alike m') (i : ℕ) (c : Conditions) (r : Request) :
    (m.asked i c r).2 = (m'.asked i c r).2 ∧ (m.asked i c r).1.Alike (m'.asked i c r).1 := by
  obtain ⟨hname, hstrings, hsets, hstreams, hlast⟩ := h
  let start : Memory := { m with failing := c.refused i }
  let start' : Memory := { m' with failing := c.refused i }
  rcases r.leaves with hr | hr
  · obtain ⟨streams, last, a, hasked⟩ := exchange_of_leavesKeys hr c.clock start
    obtain ⟨log, hm⟩ := hasked start rfl rfl rfl rfl
    obtain ⟨log', hm'⟩ := hasked start' hname.symm rfl hstreams.symm hlast.symm
    rw [Memory.asked, Memory.asked, hm, hm']
    exact ⟨rfl, hname, hstrings, hsets, rfl, rfl⟩
  · obtain ⟨strings, sets, a, hasked⟩ := exchange_of_leavesStreams hr c.clock start
    obtain ⟨log, hm⟩ := hasked start rfl rfl rfl rfl
    obtain ⟨log', hm'⟩ := hasked start' hname.symm rfl hstrings.symm hsets.symm
    rw [Memory.asked, Memory.asked, hm, hm']
    exact ⟨rfl, hname, rfl, rfl, hstreams, hlast⟩

/-- Two requests of which one leaves what the other writes may be made in either order. -/
theorem asked_comm (m : Memory) (i j : ℕ) (c d : Conditions) {r t : Request}
    (hr : r.leavesKeys = true) (ht : t.leavesStreams = true) :
    ((m.asked j d t).1.asked i c r).2 = (m.asked i c r).2 ∧
      ((m.asked i c r).1.asked j d t).2 = (m.asked j d t).2 ∧
      ((m.asked i c r).1.asked j d t).1.Alike ((m.asked j d t).1.asked i c r).1 := by
  obtain ⟨streams, last, a, hr⟩ := exchange_of_leavesKeys hr c.clock { m with failing := c.refused i }
  obtain ⟨strings, sets, b, ht⟩ := exchange_of_leavesStreams ht d.clock { m with failing := d.refused j }
  obtain ⟨log, hfirst⟩ := hr { m with failing := c.refused i } rfl rfl rfl rfl
  obtain ⟨log', hfirst'⟩ := ht { m with failing := d.refused j } rfl rfl rfl rfl
  obtain ⟨log₂, hsecond⟩ := ht
    { m with failing := d.refused j, streams := streams, lastId := last, log := log } rfl rfl rfl rfl
  obtain ⟨log₃, hsecond'⟩ := hr
    { m with failing := c.refused i, strings := strings, sets := sets, log := log' } rfl rfl rfl rfl
  simp only [asked, hfirst, hfirst', hsecond, hsecond']
  exact ⟨trivial, trivial, rfl, rfl, rfl, rfl, rfl⟩

end Memory

namespace Backend

inductive Alike : Backend → Backend → Prop
  | memory {m m' : Memory} : m.Alike m' → Alike (.memory m) (.memory m')

theorem Alike.symm {b b' : Backend} (h : b.Alike b') : b'.Alike b := by
  cases h with
  | memory h => exact .memory h.symm

theorem Alike.trans {b b' b'' : Backend} (h : b.Alike b') (h' : b'.Alike b'') : b.Alike b'' := by
  cases h with
  | memory h =>
    cases h' with
    | memory h' => exact .memory (h.trans h')

theorem Alike.asked {b b' : Backend} (h : b.Alike b') (i : ℕ) (c : Conditions) (r : Request) :
    (b.asked i c r).2 = (b'.asked i c r).2 ∧ (b.asked i c r).1.Alike (b'.asked i c r).1 := by
  cases h with
  | memory h =>
    obtain ⟨hanswer, halike⟩ := h.asked i c r
    exact ⟨hanswer, .memory halike⟩

theorem asked_comm {b : Backend} (hb : b.Alike b) (i j : ℕ) (c d : Conditions) {r t : Request}
    (hr : r.leavesKeys = true) (ht : t.leavesStreams = true) :
    ((b.asked j d t).1.asked i c r).2 = (b.asked i c r).2 ∧
      ((b.asked i c r).1.asked j d t).2 = (b.asked j d t).2 ∧
      ((b.asked i c r).1.asked j d t).1.Alike ((b.asked j d t).1.asked i c r).1 := by
  cases hb with
  | @memory m _ _ =>
    obtain ⟨hleft, hright, halike⟩ := m.asked_comm i j c d hr ht
    exact ⟨hleft, hright, .memory halike⟩

end Backend

def Beside (R : Backend → Backend → Prop) (bs bs' : List Backend) : Prop :=
  ∀ i : ℕ, Option.Rel R bs[i]? bs'[i]?

namespace Beside

variable {R S : Backend → Backend → Prop} {bs bs' bs'' : List Backend}

theorem at_position (h : Beside R bs bs') (i : ℕ) :
    (bs[i]? = none ∧ bs'[i]? = none) ∨ ∃ b b', bs[i]? = some b ∧ bs'[i]? = some b' ∧ R b b' := by
  have hrel := h i
  generalize bs[i]? = x at hrel ⊢
  generalize bs'[i]? = y at hrel ⊢
  cases hrel with
  | none => exact .inl ⟨rfl, rfl⟩
  | some hb => exact .inr ⟨_, _, rfl, rfl, hb⟩

theorem of_positions (h : ∀ i : ℕ, (bs[i]? = none ∧ bs'[i]? = none) ∨
    ∃ b b', bs[i]? = some b ∧ bs'[i]? = some b' ∧ R b b') : Beside R bs bs' := by
  intro i
  rcases h i with ⟨hb, hb'⟩ | ⟨b, b', hb, hb', hR⟩
  · rw [hb, hb']
    exact .none
  · rw [hb, hb']
    exact .some hR

theorem of_self (h : ∀ b ∈ bs, R b b) : Beside R bs bs := by
  intro i
  cases hi : bs[i]? with
  | none => exact .none
  | some b => exact .some (h b (List.mem_of_getElem? hi))

theorem symm (h : Beside R bs bs') (hRS : ∀ b b', R b b' → S b' b) : Beside S bs' bs := by
  refine of_positions fun i => ?_
  rcases h.at_position i with ⟨hb, hb'⟩ | ⟨b, b', hb, hb', hR⟩
  · exact .inl ⟨hb', hb⟩
  · exact .inr ⟨b', b, hb', hb, hRS b b' hR⟩

theorem trans (h : Beside R bs bs') (h' : Beside R bs' bs'')
    (hR : ∀ b b' b'', R b b' → R b' b'' → R b b'') : Beside R bs bs'' := by
  refine of_positions fun i => ?_
  rcases h.at_position i with ⟨hb, hb'⟩ | ⟨b, b', hb, hb', hbb⟩ <;>
    rcases h'.at_position i with ⟨hc, hc'⟩ | ⟨d, d', hd, hd', hdd⟩
  · exact .inl ⟨hb, hc'⟩
  · simp [hb'] at hd
  · simp [hb'] at hc
  · obtain rfl : b' = d := Option.some.inj (hb'.symm.trans hd)
    exact .inr ⟨b, d', hb, hd', hR b b' d' hbb hdd⟩

theorem map {as as' : List Backend} {f f' : ℕ → Backend → Backend} (h : Beside R bs bs')
    (hf : ∀ i : ℕ, as[i]? = bs[i]?.map (f i)) (hf' : ∀ i : ℕ, as'[i]? = bs'[i]?.map (f' i))
    (hRS : ∀ i b b', R b b' → S (f i b) (f' i b')) : Beside S as as' := by
  refine of_positions fun i => ?_
  rcases h.at_position i with ⟨hb, hb'⟩ | ⟨b, b', hb, hb', hR⟩
  · exact .inl ⟨by rw [hf, hb]; rfl, by rw [hf', hb']; rfl⟩
  · exact .inr ⟨f i b, f' i b', by rw [hf, hb]; rfl, by rw [hf', hb']; rfl, hRS i b b' hR⟩

theorem length_eq (h : Beside R bs bs') : bs.length = bs'.length := by
  have hnone : ∀ i : ℕ, bs[i]? = none ↔ bs'[i]? = none := by
    intro i
    rcases h.at_position i with ⟨hb, hb'⟩ | ⟨b, b', hb, hb', -⟩ <;> simp [hb, hb']
  have hle : bs.length ≤ bs'.length :=
    List.getElem?_eq_none_iff.1 ((hnone _).2 (List.getElem?_eq_none_iff.2 le_rfl))
  have hge : bs'.length ≤ bs.length :=
    List.getElem?_eq_none_iff.1 ((hnone _).1 (List.getElem?_eq_none_iff.2 le_rfl))
  exact le_antisymm hle hge

end Beside

end Storage

end SessionWatch
