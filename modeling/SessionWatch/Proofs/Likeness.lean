import SessionWatch.Proofs.Accesses
import SessionWatch.Proofs.Entries
import SessionWatch.Proofs.FlatObject

/-!
What one session sees of a world: the times of the nodes, its own time, and its own entries in the
streams. Worlds that are the same in all this answer a session's steps the same, up to ids and
counts that no handler looks at, and stay the same for it.
-/

namespace SessionWatch

open Session

/-- Whether an entry enqueues or deletes the session. -/
def Session.isFor (sid : String) (f : Storage.Fields) : Bool :=
  match f.lookup "TaskType" with
  | some "EnqueueSession" =>
    ((f.lookup "TaskInfo").bind Ready.decode?).any fun r => r.sessionId == sid
  | some "DeleteSession" =>
    ((f.lookup "TaskInfo").bind Deletable.decode?).any fun d => d.sessionId == sid
  | _ => false

namespace Storage

def Tied {α : Type} (x y : Result α) : Prop := isFailure x = isFailure y

theorem Tied.cases {α : Type} {x y : Result α} (h : Tied x y) :
    (∃ a b, x = .ok a ∧ y = .ok b) ∨ ∃ r r', x = .error r ∧ y = .error r' := by
  cases x with
  | ok a =>
    cases y with
    | ok b => exact .inl ⟨a, b, rfl, rfl⟩
    | error r => cases h
  | error r =>
    cases y with
    | ok b => cases h
    | error r' => exact .inr ⟨r, r', rfl, rfl⟩

/-- Answers that a handler does not tell apart: of the time it sees all, of the rest the success. -/
def Request.Agrees (r : Request) (x y : Result r.Answer) : Prop := Tied x y ∧ (r = .time → x = y)

theorem Request.agrees_refl (r : Request) (x : Result r.Answer) : r.Agrees x x :=
  ⟨rfl, fun _ => rfl⟩

namespace Memory

/-- Whether all records can be written goes by the clock alone. -/
theorem writeAll_ok (m m' : Memory) (c : Clock) (rs : List Record) :
    (m.writeAll c rs).2 = (m'.writeAll c rs).2 := by
  induction rs generalizing m m' with
  | nil => rfl
  | cons r rs ih =>
    cases hexpiry : r.expiry with
    | none => simpa [writeAll, write?, hexpiry] using ih _ _
    | some ms =>
      cases hdeadline : c.deadline? ms with
      | none => simp [writeAll, write?, hexpiry, hdeadline]
      | some d => simpa [writeAll, write?, hexpiry, hdeadline] using ih _ _

theorem name_exchange (m : Memory) (c : Clock) (r : Request) : (m.exchange c r).1.name = m.name := by
  rcases r.leaves with hr | hr
  · obtain ⟨streams, last, a, h⟩ := exchange_of_leavesKeys hr c m
    obtain ⟨log, hm⟩ := h m rfl rfl rfl rfl
    rw [hm]
  · obtain ⟨strings, sets, a, h⟩ := exchange_of_leavesStreams hr c m
    obtain ⟨log, hm⟩ := h m rfl rfl rfl rfl
    rw [hm]

/-- Stores of one name are answered alike, whatever they hold. -/
theorem exchange_agrees {m m' : Memory} (c : Clock) (r : Request) (hname : m.name = m'.name)
    (hfailing : m.failing = m'.failing) :
    Option.Rel r.Agrees (m.exchange c r).2 (m'.exchange c r).2 := by
  have hfails : m'.fails r = m.fails r := fails_eq hfailing.symm r
  cases hf : m.fails r with
  | true =>
    rw [exchange_of_fails c hf, exchange_of_fails c (hfails.trans hf), hname]
    exact .some (r.agrees_refl _)
  | false =>
    rw [exchange_of_not_fails c hf, exchange_of_not_fails c (hfails.trans hf)]
    cases r with
    | time => exact .some (Request.agrees_refl .time (.ok c.seconds))
    | ping => exact .some (Request.agrees_refl .ping (.ok "PONG"))
    | append stream id fields => exact .some ⟨rfl, nofun⟩
    | index set rs =>
      cases rs with
      | nil => exact .some ⟨rfl, nofun⟩
      | cons r rs =>
        have hok := m.writeAll_ok m' c (r :: rs)
        rcases hm : m.writeAll c (r :: rs) with ⟨m₁, _ | _⟩ <;>
          rcases hm' : m'.writeAll c (r :: rs) with ⟨m₂, _ | _⟩ <;>
          simp only [hm, hm', reduceCtorEq] at hok
        · simp only [serve, hm, hm']
          exact .none
        · simp only [serve, hm, hm']
          exact .some ⟨rfl, fun h => by cases h⟩

theorem exchange_adds {m m' : Memory} (c : Clock) (r : Request) (hfailing : m.failing = m'.failing)
    (key : String) : ∃ new,
      ((m.exchange c r).1.stream key).map (·.fields) = (m.stream key).map (·.fields) ++ new ∧
      ((m'.exchange c r).1.stream key).map (·.fields) = (m'.stream key).map (·.fields) ++ new := by
  have hkept : ∀ m : Memory, r.leavesStreams = true → (m.exchange c r).1.stream key = m.stream key := by
    intro m hr
    obtain ⟨strings, sets, a, h⟩ := exchange_of_leavesStreams hr c m
    obtain ⟨log, hm⟩ := h m rfl rfl rfl rfl
    rw [hm]
    rfl
  have hfails : m'.fails r = m.fails r := fails_eq hfailing.symm r
  cases hf : m.fails r with
  | true =>
    rw [exchange_of_fails c hf, exchange_of_fails c (hfails.trans hf)]
    exact ⟨[], by simp, by simp⟩
  | false =>
    cases r with
    | append stream id fields =>
      rw [exchange_of_not_fails c hf, exchange_of_not_fails c (hfails.trans hf)]
      exact ⟨_, m.stream_append c.millis stream id fields key,
        m'.stream_append c.millis stream id fields key⟩
    | _ => exact ⟨[], by rw [hkept m rfl]; simp, by rw [hkept m' rfl]; simp⟩

end Memory

namespace Backend

inductive SameStore : Backend → Backend → Prop
  | memory {m m' : Memory} : m.name = m'.name → SameStore (.memory m) (.memory m')

theorem SameStore.symm {b b' : Backend} (h : b.SameStore b') : b'.SameStore b := by
  cases h with
  | memory h => exact .memory h.symm

theorem SameStore.trans {b b' b'' : Backend} (h : b.SameStore b') (h' : b'.SameStore b'') :
    b.SameStore b'' := by
  cases h with
  | memory h =>
    cases h' with
    | memory h' => exact .memory (h.trans h')

theorem SameStore.answers {b b' : Backend} (h : b.SameStore b') (i : ℕ) (c : Conditions)
    (r : Request) : Option.Rel r.Agrees (b.asked i c r).2 (b'.asked i c r).2 ∧
      ∀ key, ∃ new, (b.asked i c r).1.entries key = b.entries key ++ new ∧
        (b'.asked i c r).1.entries key = b'.entries key ++ new := by
  cases h with
  | @memory m m' h =>
    let start : Memory := { m with failing := c.refused i }
    let start' : Memory := { m' with failing := c.refused i }
    exact ⟨@Memory.exchange_agrees start start' c.clock r h rfl,
      @Memory.exchange_adds start start' c.clock r rfl⟩

end Backend

end Storage

namespace World

variable {sid : String} {w v u : World}

/-- Two worlds that are the same for a session: the times of all nodes, the time of the session, and
in every stream the entries that are for it. -/
structure SameFor (sid : String) (w v : World) : Prop where
  node : ∀ n, w.cache.get? (nodeKey n) = v.cache.get? (nodeKey n)
  session : w.cache.get? (podKey sid) = v.cache.get? (podKey sid)
  entries : ∀ i key, (w.entries i key).filter (isFor sid) = (v.entries i key).filter (isFor sid)

namespace SameFor

theorem symm (h : w.SameFor sid v) : v.SameFor sid w where
  node n := (h.node n).symm
  session := h.session.symm
  entries i key := (h.entries i key).symm

theorem trans (h : w.SameFor sid v) (h' : v.SameFor sid u) : w.SameFor sid u where
  node n := (h.node n).trans (h'.node n)
  session := h.session.trans h'.session
  entries i key := (h.entries i key).trans (h'.entries i key)

theorem of_quiet (h : w.Quiet v) : w.SameFor sid v where
  node n := by rw [h.cache]
  session := by rw [h.cache]
  entries i key := by rw [h.entries_eq]

end SameFor

structure AlikeFor (sid : String) (w v : World) : Prop extends w.SameFor sid v where
  stores : Storage.Beside Storage.Backend.SameStore w.backends v.backends

theorem InMemory.alikeFor (h : w.InMemory) : w.AlikeFor sid w := by
  refine ⟨⟨fun _ => rfl, rfl, fun _ _ => rfl⟩, .of_self fun b hb => ?_⟩
  obtain ⟨m, rfl⟩ := h b hb
  exact .memory rfl

end World

namespace Step

/-- Steps on what a session sees. -/
inductive IsSeen (sid : String) : Step → Prop
  | exchange (i : ℕ) (r : Storage.Request) : IsSeen sid (.exchange i r)
  | consultNode (n : String) : IsSeen sid (.consult (nodeKey n))
  | rememberNode (n : String) (t : Int64) : IsSeen sid (.remember (nodeKey n) t)
  | consult : IsSeen sid (.consult (podKey sid))
  | remember (t : Int64) : IsSeen sid (.remember (podKey sid) t)
  | forget : IsSeen sid (.forget (podKey sid))
  | stamp : IsSeen sid .stamp
  | note (n : Note) : IsSeen sid (.note n)

def Agrees : (s : Step) → s.Answer → s.Answer → Prop
  | .exchange _ r, x, y => r.Agrees x y
  | .consult _, x, y => x = y
  | _, _, _ => True

end Step

theorem Storage.Backend.SameStore.onBackend {b b' : Storage.Backend} (h : b.SameStore b')
    (c : Conditions) (k : ℕ) (s : Step) : b.SameStore (s.onBackend c k b') := by
  cases s with
  | exchange i r =>
    simp only [Step.onBackend]
    split
    · cases h with
      | @memory m m' h =>
        have hname := Storage.Memory.name_exchange { m' with failing := c.refused i } c.clock r
        exact .memory (h.trans hname.symm)
    · exact h
  | _ => exact h

theorem Plan.play_stores {α : Type} (p : Plan α) {w v : World} (ω : Weather)
    (h : Storage.Beside Storage.Backend.SameStore w.backends v.backends) :
    Storage.Beside Storage.Backend.SameStore w.backends (p.play ⟨v, ω⟩).1.world.backends := by
  induction p generalizing v ω with
  | done a => exact h
  | step s next ih =>
    have hnext : Storage.Beside Storage.Backend.SameStore w.backends
        (v.under (ω 0) s).1.backends :=
      h.map (fun _ => Option.map_id'.symm) (v.backends_under (ω 0) s) fun i b b' hb =>
        hb.onBackend (ω 0) i s
    rw [play_step, Scene.perform_eq]
    rcases hs : v.under (ω 0) s with ⟨v', _ | x⟩
    · rwa [hs] at hnext
    · rw [hs] at hnext
      exact ih x _ hnext

namespace World

variable {sid : String} {w v u : World}

theorem entries_under (w : World) (c : Conditions) (s : Step) (i : ℕ) (key : String) :
    (w.under c s).1.entries i key =
      ((w.backends[i]?.map (s.onBackend c i)).map (·.entries key)).getD [] := by
  rw [entries, backends_under]

namespace AlikeFor

theorem symm (h : w.AlikeFor sid v) : v.AlikeFor sid w :=
  ⟨h.toSameFor.symm, h.stores.symm fun _ _ hb => hb.symm⟩

theorem trans (h : w.AlikeFor sid v) (h' : v.AlikeFor sid u) : w.AlikeFor sid u :=
  ⟨h.toSameFor.trans h'.toSameFor, h.stores.trans h'.stores fun _ _ _ hb hb' => hb.trans hb'⟩

theorem answers (h : w.AlikeFor sid v) (c : Conditions) {s : Step} (hs : s.IsSeen sid) :
    Option.Rel s.Agrees (w.under c s).2 (v.under c s).2 := by
  cases hs with
  | exchange i r =>
    rw [under_exchange, under_exchange]
    rcases h.stores.at_position i with ⟨hw, hv⟩ | ⟨b, b', hw, hv, hb⟩
    · rw [hw, hv]
      exact .some (r.agrees_refl _)
    · rw [hw, hv]
      exact (hb.answers i c r).1
  | consultNode n =>
    have hanswer : w.cache.get? (nodeKey n) = v.cache.get? (nodeKey n) := h.node n
    exact .some hanswer
  | consult =>
    have hanswer : w.cache.get? (podKey sid) = v.cache.get? (podKey sid) := h.session
    exact .some hanswer
  | rememberNode n t => exact .some trivial
  | remember t => exact .some trivial
  | forget => exact .some trivial
  | stamp => exact .some trivial
  | note n => exact .some trivial

theorem under (h : w.AlikeFor sid v) (c : Conditions) {s : Step} (hs : s.IsSeen sid) :
    (w.under c s).1.AlikeFor sid (v.under c s).1 := by
  have hne : ∀ n, nodeKey n ≠ podKey sid := fun n => nodeKey_ne_podKey n sid
  have hnode := h.node
  have hsession := h.session
  refine ⟨⟨fun n => ?_, ?_, fun i key => ?_⟩, beside_under h.stores fun i b b' hb =>
    ((hb.onBackend c i s).symm.onBackend c i s).symm⟩
  · rw [cache_under, cache_under]
    cases hs <;> simp [Step.onCache, hnode, (hne n).symm]
  · rw [cache_under, cache_under]
    cases hs <;> simp [Step.onCache, hsession, hne]
  · rw [entries_under, entries_under]
    have hentries := h.entries i key
    rcases h.stores.at_position i with ⟨hw, hv⟩ | ⟨b, b', hw, hv, hb⟩
    · simp [hw, hv]
    · simp only [World.entries, hw, hv, Option.map_some, Option.getD_some] at hentries ⊢
      cases s with
      | exchange j r =>
        simp only [Step.onBackend]
        split
        · obtain ⟨new, hnew, hnew'⟩ := (hb.answers j c r).2 key
          rw [hnew, hnew', List.filter_append, List.filter_append, hentries]
        · exact hentries
      | _ => exact hentries

end AlikeFor

end World

end SessionWatch
