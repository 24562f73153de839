import SessionWatch.Proofs.Play
import SessionWatch.Storage.FanOut

/-!
What stands in the streams of the backends. The entries of a store in memory are in its streams;
those of a server are the ones it was sent. Entries are only ever added at the end, and only by a
request that appends them.
-/

namespace SessionWatch

namespace Storage

def pairUp : List String → Fields
  | name :: value :: rest => (name, value) :: pairUp rest
  | _ => []

@[simp] theorem pairUp_flatMap (fields : Fields) :
    pairUp (fields.flatMap fun f => [f.1, f.2]) = fields := by
  induction fields with
  | nil => rfl
  | cons f fs ih => simp [pairUp, ih]

def entryOf? (key : String) : List String → Option Fields
  | "XADD" :: stream :: _ :: rest => if stream = key then some (pairUp rest) else none
  | _ => none

def Backend.entries (key : String) : Backend → List Fields
  | .memory m => (m.stream key).map (·.fields)
  | .redis c => c.sent.filterMap (entryOf? key)

/-- What a request adds to a stream if it is carried out. -/
def Request.Adds : Request → String → Fields → Prop
  | .append stream _ fields, key, f => stream = key ∧ fields = f
  | _, _, _ => False

namespace Memory

@[simp] theorem stream_record (m : Memory) (c : Command) (key : String) :
    (m.record c).stream key = m.stream key := rfl

theorem stream_writeAll (m : Memory) (c : Clock) (rs : List Record) (key : String) :
    (m.writeAll c rs).1.stream key = m.stream key := by
  induction rs generalizing m with
  | nil => rfl
  | cons r rs ih =>
    rw [writeAll]
    cases hw : m.write? c r with
    | none => rfl
    | some m' =>
      have hm : m'.stream key = m.stream key := by
        simp only [write?] at hw
        split at hw
        · simp only [Option.some.injEq] at hw
          subst hw
          rfl
        · obtain ⟨d, -, rfl⟩ := Option.map_eq_some_iff.1 hw
          rfl
      exact (ih m').trans hm

theorem stream_append (m : Memory) (now : UInt64) (target id : String) (fields : Fields)
    (key : String) :
    ((m.append now target id fields).1.stream key).map (·.fields) =
      (m.stream key).map (·.fields) ++ if target = key then [fields] else [] := by
  by_cases hk : target = key
  · subst hk
    simp [append, Memory.stream, record]
  · simp [append, Memory.stream, record, hk]

theorem stream_exchange (m : Memory) (c : Clock) (r : Request) (key : String) :
    ((m.exchange c r).1.stream key).map (·.fields) = (m.stream key).map (·.fields) ∨
      ∃ f, r.Adds key f ∧
        ((m.exchange c r).1.stream key).map (·.fields) =
          (m.stream key).map (·.fields) ++ [f] := by
  unfold exchange
  split
  · exact .inl rfl
  · cases r with
    | append stream id fields =>
      have hs := m.stream_append c.millis stream id fields key
      by_cases hk : stream = key
      · rw [if_pos hk] at hs
        exact .inr ⟨fields, ⟨hk, rfl⟩, hs⟩
      · rw [if_neg hk, List.append_nil] at hs
        exact .inl hs
    | index set rs =>
      refine .inl (congrArg _ ?_)
      cases rs with
      | nil => rfl
      | cons r rs =>
        have hw := stream_writeAll m c (r :: rs) key
        simp only [serve]
        split <;> simp_all [addMembers, Memory.stream, record]
    | _ => exact .inl rfl

end Memory

namespace Redis.Connection

theorem entryOf?_commands (r : Request) (key : String) :
    (commands r).filterMap (entryOf? key) = [] ∨
      ∃ f, r.Adds key f ∧ (commands r).filterMap (entryOf? key) = [f] := by
  cases r with
  | append stream id fields =>
    by_cases hk : stream = key
    · exact .inr ⟨fields, ⟨hk, rfl⟩, by simp [commands, entryOf?, hk]⟩
    · exact .inl (by simp [commands, entryOf?, hk])
  | index set rs =>
    refine .inl ?_
    cases rs with
    | nil => rfl
    | cons r rs =>
      refine List.filterMap_eq_nil_iff.2 fun command hc => ?_
      simp only [commands, List.mem_cons, List.mem_append, List.mem_map, List.not_mem_nil,
        or_false] at hc
      rcases hc with rfl | ⟨r, -, rfl⟩ | rfl | rfl <;> rfl
  | _ => exact .inl rfl

theorem sent_exchange (c : Connection) (r : Request) :
    (c.exchange r).1.sent = c.sent ++ commands r := by
  unfold exchange
  split
  · simp [commands]
  · unfold receive
    cases c.pending <;> rfl

end Redis.Connection

namespace Backend

@[simp] theorem entries_refusing (b : Backend) (ops : List Operation) (key : String) :
    (b.refusing ops).entries key = b.entries key := by
  cases b <;> rfl

theorem entries_exchange (b : Backend) (c : Clock) (r : Request) (key : String) :
    (b.exchange c r).1.entries key = b.entries key ∨
      ∃ f, r.Adds key f ∧ (b.exchange c r).1.entries key = b.entries key ++ [f] := by
  cases b with
  | memory m => exact m.stream_exchange c r key
  | redis c' =>
    have hsent := c'.sent_exchange r
    rcases Redis.Connection.entryOf?_commands r key with h | ⟨f, hf, h⟩
    · exact .inl (by simp [exchange, entries, hsent, List.filterMap_append, h])
    · exact .inr ⟨f, hf, by simp [exchange, entries, hsent, List.filterMap_append, h]⟩

end Backend

end Storage

namespace World

def entries (w : World) (i : ℕ) (key : String) : List Storage.Fields :=
  (w.backends[i]?.map (·.entries key)).getD []

/-- The streams of one world are those of another with entries added, each of them as told. -/
def Grows (w v : World) (P : String → Storage.Fields → Prop) : Prop :=
  ∀ i key, ∃ new, v.entries i key = w.entries i key ++ new ∧ ∀ f ∈ new, P key f

namespace Grows

variable {w v u : World} {P Q : String → Storage.Fields → Prop}

theorem of_eq (h : ∀ i key, v.entries i key = w.entries i key) : w.Grows v P :=
  fun i key => ⟨[], by simp [h], by simp⟩

theorem mono (h : w.Grows v P) (hPQ : ∀ key f, P key f → Q key f) : w.Grows v Q := by
  intro i key
  obtain ⟨new, hnew, hP⟩ := h i key
  exact ⟨new, hnew, fun f hf => hPQ key f (hP f hf)⟩

theorem trans (h : w.Grows v P) (h' : v.Grows u P) : w.Grows u P := by
  intro i key
  obtain ⟨new, hnew, hP⟩ := h i key
  obtain ⟨new', hnew', hP'⟩ := h' i key
  refine ⟨new ++ new', by rw [hnew', hnew, List.append_assoc], fun f hf => ?_⟩
  rcases List.mem_append.1 hf with hf | hf
  · exact hP f hf
  · exact hP' f hf

end Grows

/-- One world is another with entries added to its streams; times, calls and events are the
same. -/
structure Extends (w v : World) (P : String → Storage.Fields → Prop) : Prop where
  cache : v.cache = w.cache
  notes : v.notes = w.notes
  entries : w.Grows v P

/-- Nothing that matters to a session is different. -/
abbrev Quiet (w v : World) : Prop := w.Extends v fun _ _ => False

namespace Extends

variable {w v u : World} {P Q : String → Storage.Fields → Prop}

theorem mono (h : w.Extends v P) (hPQ : ∀ key f, P key f → Q key f) : w.Extends v Q :=
  ⟨h.cache, h.notes, h.entries.mono hPQ⟩

theorem trans (h : w.Extends v P) (h' : v.Extends u P) : w.Extends u P :=
  ⟨h'.cache.trans h.cache, h'.notes.trans h.notes, h.entries.trans h'.entries⟩

end Extends

theorem quiet_of_eq {w v : World} (hc : v.cache = w.cache) (hn : v.notes = w.notes)
    (hb : v.backends = w.backends) : w.Quiet v :=
  ⟨hc, hn, .of_eq fun i key => by simp [entries, hb]⟩

theorem Quiet.refl (w : World) : w.Quiet w := quiet_of_eq rfl rfl rfl

theorem Quiet.extends {w v : World} {P : String → Storage.Fields → Prop} (h : w.Quiet v) :
    w.Extends v P := h.mono fun _ _ hf => hf.elim

theorem Quiet.entries_eq {w v : World} (h : w.Quiet v) (i : ℕ) (key : String) :
    v.entries i key = w.entries i key := by
  obtain ⟨new, hnew, hf⟩ := h.entries i key
  cases new with
  | nil => simpa using hnew
  | cons f fs => exact (hf f (by simp)).elim

theorem entries_facing (w : World) (c : Conditions) (s : Step) (i : ℕ) (key : String) :
    (w.facing c s).entries i key = w.entries i key := by
  cases s with
  | exchange j r =>
    simp only [facing, entries, List.getElem?_modify]
    cases w.backends[i]? with
    | none => rfl
    | some b => by_cases hij : j = i <;> simp [hij]
  | _ => rfl

theorem facing_quiet (w : World) (c : Conditions) (s : Step) : w.Quiet (w.facing c s) where
  cache := by cases s <;> rfl
  notes := by cases s <;> rfl
  entries := .of_eq (w.entries_facing c s)

theorem exchange_extends (w : World) (i : ℕ) (r : Storage.Request) :
    w.Extends (w.exchange i r).1 r.Adds := by
  unfold exchange
  cases hi : w.backends[i]? with
  | none => exact (Quiet.refl w).extends
  | some b =>
    refine ⟨rfl, rfl, fun j key => ?_⟩
    by_cases hij : i = j
    · subst hij
      have hlt : i < w.backends.length := (List.getElem?_eq_some_iff.1 hi).1
      have hold : w.entries i key = b.entries key := by rw [entries, hi]; rfl
      rw [hold]
      rcases b.entries_exchange w.clock r key with h | ⟨f, hf, h⟩
      · exact ⟨[], by simp [entries, hlt, h], by simp⟩
      · exact ⟨[f], by simp [entries, hlt, h], by simpa using hf⟩
    · exact ⟨[], by simp [entries, List.getElem?_set_ne hij], by simp⟩

end World

namespace Plan

/-- What every step ensures: it finds the world as it was but for its clocks and refusals. -/
theorem once_ensures {s : Step} {w : World} {Q : World → Option s.Answer → Prop}
    (h : ∀ c, Q ((w.facing c s).perform s).1 ((w.facing c s).perform s).2) :
    (once s).Ensures w Q := by
  intro ω
  rw [play_once]
  exact h (ω 0)

theorem exchange_ensures (i : ℕ) (r : Storage.Request) (w : World) :
    (exchange i r).Ensures w fun v _ => w.Extends v r.Adds :=
  once_ensures fun c =>
    (w.facing_quiet c _).extends.trans ((w.facing c _).exchange_extends i r)

theorem consult_ensures (key : String) (w : World) :
    (consult key).Ensures w fun v x => w.Quiet v ∧ x = some (w.cache.get? key) :=
  once_ensures fun c => ⟨w.facing_quiet c (.consult key), rfl⟩

theorem stamp_ensures (w : World) : stamp.Ensures w fun v x => w.Quiet v ∧ x.isSome :=
  once_ensures fun _ => ⟨World.quiet_of_eq rfl rfl rfl, rfl⟩

end Plan

namespace Storage

theorem askEach_ensures (r : Request) (t : Tally r.Answer) (is : List ℕ) (w : World) :
    (askEach r t is).Ensures w fun v _ => w.Extends v r.Adds := by
  induction is generalizing t w with
  | nil => exact .done (World.Quiet.refl w).extends
  | cons i is ih =>
    refine (Plan.exchange_ensures i r w).bind (fun v a hv => ?_) fun v hv => hv
    exact (ih (t.record a) v).mono fun u _ hu => hv.trans hu

theorem fanOut_ensures (n : ℕ) (r : Request) (w : World) :
    (fanOut n r).Ensures w fun v _ => w.Extends v r.Adds :=
  (askEach_ensures r _ _ w).bind (fun _ _ hv => .done hv) fun _ hv => hv

end Storage

end SessionWatch
