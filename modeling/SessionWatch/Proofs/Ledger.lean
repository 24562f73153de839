import SessionWatch.Proofs.Requests

/-!
Ledgers: lists that a backend keeps and that requests add to at the end, such as the entries of a
stream or the keys that it was told to write. A plan adds no more to them than its requests do, and
just that where it thrives.
-/

namespace SessionWatch

open Storage

/-! ### Ledgers -/

/-- What becomes of a list by an answer: this is added, or there is no success and it stays. -/
def Storage.Carried {α β : Type} (x : Option (Result α)) (before new after : List β) : Prop :=
  x.isSome ∧ after = before ++ new ∨ (∀ a, x ≠ some (.ok a)) ∧ after = before

section Carried

variable {α β : Type} {before new after : List β}

theorem Storage.Carried.of_error {e : Report} (h : after = before) :
    Carried (some (.error e : Result α)) before new after :=
  .inr ⟨by simp, h⟩

theorem Storage.Carried.of_none (h : after = before) :
    Carried (none : Option (Result α)) before new after :=
  .inr ⟨by simp, h⟩

theorem Storage.Carried.filterMap {γ : Type} {x : Option (Result α)}
    (h : Carried x before new after) (g : β → Option γ) :
    Carried x (before.filterMap g) (new.filterMap g) (after.filterMap g) := by
  rcases h with ⟨hsome, hadds⟩ | ⟨hfails, hkept⟩
  · exact .inl ⟨hsome, by rw [hadds, List.filterMap_append]⟩
  · exact .inr ⟨hfails, by rw [hkept]⟩

end Carried

/-- A list that backends keep, and what a request for one record adds to it if it is carried out. -/
structure Storage.Ledger (β : Type) where
  of : Backend → List β
  adds : Request → List β
  of_refusing : ∀ b ops, of (b.refusing ops) = of b
  of_exchange : ∀ b c r, r.IsSingle →
    Carried (b.exchange c r).2 (of b) (adds r) (of (b.exchange c r).1)

namespace Storage.Ledger

variable {β : Type} (L : Ledger β)

def read (w : World) (i : ℕ) : List β := (w.backends[i]?.map L.of).getD []

/-- What a step has made of the ledger of a backend, by its answer: what was asked is added, or the
step did not succeed and nothing is. -/
inductive Took (i : ℕ) (w v : World) (s : Step) : Option s.Answer → Prop
  | added (x : s.Answer) : L.read v i = L.read w i ++ (requestsTo i [⟨s, x⟩]).flatMap L.adds →
      Took i w v s (some x)
  | kept {x : Option s.Answer} : (∀ y, x = some y → ¬ Deed.Succeeds ⟨s, y⟩) →
      L.read v i = L.read w i → Took i w v s x

theorem took_of_idle {w : World} {c : Conditions} {s : Step} {i : ℕ} (hs : s.onBackend c i = id)
    (hnone : ∀ x, requestsTo i [⟨s, x⟩] = []) :
    L.Took i w (w.under c s).1 s (w.under c s).2 := by
  have hkept : L.read (w.under c s).1 i = L.read w i := by
    rw [read, World.backends_under, hs, Option.map_id]
    rfl
  cases (w.under c s).2 with
  | none => exact .kept nofun hkept
  | some x => exact .added x (by rw [hkept, hnone, List.flatMap_nil, List.append_nil])

theorem took_under (w : World) (c : Conditions) {s : Step}
    (hs : ∀ i r, s = .exchange i r → r.IsSingle) (i : ℕ) :
    L.Took i w (w.under c s).1 s (w.under c s).2 := by
  cases s with
  | exchange k r =>
    by_cases hk : k = i
    · subst hk
      have hread : L.read (w.under c (.exchange k r)).1 k =
          (w.backends[k]?.map fun b => L.of (b.asked k c r).1).getD [] := by
        rw [read, World.backends_under, Option.map_map]
        simp [Step.onBackend, Function.comp_def]
      cases hb : w.backends[k]? with
      | none =>
        have hkept : L.read (w.under c (.exchange k r)).1 k = L.read w k := by
          rw [hread, read, hb]
          rfl
        refine .kept (fun y hy => ?_) hkept
        rw [World.under_exchange, hb] at hy
        obtain rfl := Option.some.inj hy
        simp [Deed.Succeeds]
      | some b =>
        have hanswer : (w.under c (.exchange k r)).2 = (b.asked k c r).2 := by
          rw [World.under_exchange, hb]
        have hold : L.read w k = L.of b := by
          rw [read, hb]
          rfl
        have hasked := L.of_exchange (b.refusing (c.refused k)) c.clock r (hs k r rfl)
        rw [L.of_refusing, ← hold] at hasked
        rw [hb] at hread
        rcases hasked with ⟨hsome, hadds⟩ | ⟨hfails, hkept⟩
        · obtain ⟨x, hx⟩ := Option.isSome_iff_exists.1 hsome
          have hrequests : (requestsTo k [⟨.exchange k r, x⟩]).flatMap L.adds = L.adds r := by
            rw [requestsTo_exchange, if_pos rfl, List.flatMap_singleton]
          have hx' : (w.under c (.exchange k r)).2 = some x := hanswer.trans hx
          rw [hx']
          refine Took.added (s := .exchange k r) x ?_
          rw [hrequests]
          exact hread.trans hadds
        · refine .kept (fun y hy => ?_) (hread.trans hkept)
          rw [hanswer] at hy
          cases y with
          | error e => simp [Deed.Succeeds]
          | ok a => exact absurd hy (hfails a)
    · exact L.took_of_idle (funext fun b => if_neg hk) fun x => by
        rw [requestsTo_exchange, if_neg hk]
  | _ => exact L.took_of_idle rfl fun _ => rfl

theorem read_play {α : Type} {p : Plan α} (hp : p.IsSingle) (c : Scene) (i : ℕ) :
    ∃ new, L.read (p.play c).1.world i = L.read c.world i ++ new ∧
      new.Sublist ((requestsTo i (p.deeds c)).flatMap L.adds) ∧
        (p.Thrives c → new = (requestsTo i (p.deeds c)).flatMap L.adds) := by
  induction p generalizing c with
  | done a => exact ⟨[], (List.append_nil _).symm, List.nil_sublist _, fun _ => rfl⟩
  | step s next ih =>
    have hstep := L.took_under c.world (c.weather 0) hp.1 i
    have hperform : c.perform s = (⟨(c.world.under (c.weather 0) s).1, fun n => c.weather (n + 1)⟩,
        (c.world.under (c.weather 0) s).2) := Scene.perform_eq c.world c.weather s
    rw [Plan.play_step, Plan.deeds_step]
    rcases hs : c.world.under (c.weather 0) s with ⟨w', _ | x⟩ <;> rw [hs] at hstep hperform
    · have hkept : L.read w' i = L.read c.world i := by
        cases hstep with
        | kept _ hkept => exact hkept
      rw [hperform]
      refine ⟨[], by rw [hkept, List.append_nil], List.nil_sublist _, fun h => ?_⟩
      obtain ⟨c', x, hx, -⟩ := h.step
      cases congrArg Prod.snd (hperform.symm.trans hx)
    · obtain ⟨rest, hrest, hsub, hall⟩ := ih x (hp.2 x) ⟨w', fun n => c.weather (n + 1)⟩
      have hsplit := requestsTo_cons i ⟨s, x⟩ ((next x).deeds ⟨w', fun n => c.weather (n + 1)⟩)
      simp only [hperform, hsplit, List.flatMap_append]
      cases hstep with
      | added _ hadds =>
        refine ⟨_ ++ rest, ?_, hsub.append_left _, fun h => by rw [hall (h.of_perform hperform).2]⟩
        rw [hrest, hadds, List.append_assoc]
      | kept hfails hkept =>
        refine ⟨rest, by rw [hrest, hkept], hsub.trans (List.sublist_append_right _ _), fun h => ?_⟩
        exact absurd (h.of_perform hperform).1 (hfails x rfl)

/-- Where the plan thrives, this is added to the ledger of a backend. -/
def Gains {α : Type} (i : ℕ) (p : Plan α) (c : Scene) (new : List β) : Prop :=
  p.Thrives c → L.read (p.play c).1.world i = L.read c.world i ++ new

section Gains

variable {L} {α γ : Type} {i : ℕ} {p : Plan α} {c : Scene} {new more : List β}

theorem Gains.bind {f : α → Plan γ} (hp : L.Gains i p c new)
    (hf : ∀ c' a, p.Thrives c → p.play c = (c', some a) → L.Gains i (f a) c' more) :
    L.Gains i (p.bind f) c (new ++ more) := by
  intro h
  obtain ⟨hthrives, c', a, hplay, hrest⟩ := h.bind
  have hfirst := hp hthrives
  rw [hplay] at hfirst
  rw [Plan.play_bind_of_some hplay, hf c' a hthrives hplay hrest, hfirst, List.append_assoc]

theorem Gains.after_nothing {f : α → Plan γ} (hp : L.Gains i p c [])
    (hf : ∀ c' a, p.Thrives c → p.play c = (c', some a) → L.Gains i (f a) c' new) :
    L.Gains i (p.bind f) c new := hp.bind hf

theorem Gains.before_nothing {f : α → Plan γ} (hp : L.Gains i p c new)
    (hf : ∀ c' a, p.Thrives c → p.play c = (c', some a) → L.Gains i (f a) c' []) :
    L.Gains i (p.bind f) c new := by
  have hboth := hp.bind hf
  rwa [List.append_nil] at hboth

theorem gains_done (L : Ledger β) (i : ℕ) (a : α) (c : Scene) : L.Gains i (.done a) c [] :=
  fun _ => (List.append_nil _).symm

variable (L i c)

theorem read_play_of_only (hsingle : p.IsSingle) (hp : p.Only fun r => L.adds r = []) :
    L.read (p.play c).1.world i = L.read c.world i := by
  obtain ⟨new, hnew, hsub, -⟩ := L.read_play hsingle c i
  have hnone : (requestsTo i (p.deeds c)).flatMap L.adds = [] :=
    List.flatMap_eq_nil_iff.2 fun r hr => hp.of_mem_requestsTo c hr
  rw [hnone, List.sublist_nil] at hsub
  rw [hnew, hsub, List.append_nil]

theorem gains_of_only (hsingle : p.IsSingle) (hp : p.Only fun r => L.adds r = []) :
    L.Gains i p c [] := fun _ => by
  rw [L.read_play_of_only i c hsingle hp, List.append_nil]

theorem gains_of_own {s : Step} (hs : s.IsOwn) : L.Gains i (Plan.once s) c [] := by
  refine L.gains_of_only i c ⟨?_, fun _ => trivial⟩ (Plan.once_only hs)
  rintro k r rfl
  exact hs.elim

variable {i}

theorem gains_fanOut {n : ℕ} (hi : i < n) {r : Request} (hr : r.IsSingle) :
    L.Gains i (fanOut n r) c (L.adds r) := by
  intro h
  obtain ⟨new, hnew, -, hall⟩ := L.read_play (fanOut_isSingle hr n) c i
  obtain ⟨k, -, hasked, hends⟩ := requestsTo_fanOut n r c
  rw [hnew, hall h, hasked, if_pos (hends h.ends ▸ hi), List.flatMap_singleton]

variable {L c}

theorem Gains.afterStamps (hp : ∀ c' : Scene, c'.world.cache = c.world.cache → L.Gains i p c' new)
    (n : ℕ) : L.Gains i (p.afterStamps n) c new := by
  induction n generalizing c with
  | zero => exact hp c rfl
  | succ n ih =>
    have hstamp : L.Gains i (Plan.once .stamp) c [] := L.gains_of_own i c trivial
    refine hstamp.after_nothing (f := fun _ => p.afterStamps n) fun c' a _ hc' => ?_
    rw [Plan.play_once] at hc'
    obtain rfl := congrArg Prod.fst hc'
    exact ih fun c'' hcache => hp c'' hcache

end Gains

end Storage.Ledger

/-! ### Entries and writes -/

namespace Storage

def Request.entries (key : String) : Request → List Fields
  | .append stream _ fields => if stream = key then [fields] else []
  | _ => []

theorem entryOf?_commands (r : Request) (key : String) :
    (Redis.commands r).filterMap (entryOf? key) = r.entries key := by
  cases r with
  | append stream id fields =>
    by_cases hk : stream = key <;> simp [Redis.commands, entryOf?, Request.entries, hk]
  | index set rs =>
    rcases Redis.Connection.entryOf?_commands (.index set rs) key with hnone | ⟨f, hf, -⟩
    · exact hnone
    · exact hf.elim
  | _ => rfl

theorem Backend.entries_carried (key : String) (b : Backend) (c : Clock) (r : Request) :
    Carried (b.exchange c r).2 (b.entries key) (r.entries key)
      ((b.exchange c r).1.entries key) := by
  cases b with
  | memory m =>
    have hout := m.exchange_outcome c r
    simp only [Backend.exchange, Backend.entries]
    generalize m.exchange c r = x at hout
    cases hout with
    | refused e _ => exact .of_error rfl
    | append stream id fields => exact .inl ⟨rfl, m.stream_append c.millis stream id fields key⟩
    | broken set done r rest =>
      refine .of_none ?_
      rw [Memory.putAll_eq]
      rfl
    | @index set rs _ _ =>
      refine .inl ⟨rfl, ?_⟩
      rw [Memory.putAll_eq]
      exact (List.append_nil _).symm
    | _ => exact .inl ⟨rfl, (List.append_nil _).symm⟩
  | redis s =>
    refine .inl ⟨rfl, ?_⟩
    simp only [Backend.exchange, Backend.entries, s.sent_exchange, List.filterMap_append,
      entryOf?_commands]

def Ledger.entries (key : String) : Ledger Fields where
  of := Backend.entries key
  adds := Request.entries key
  of_refusing b ops := b.entries_refusing ops key
  of_exchange b c r _ := b.entries_carried key c r

def Ledger.filterMap {β γ : Type} (L : Ledger β) (g : β → Option γ) : Ledger γ where
  of b := (L.of b).filterMap g
  adds r := (L.adds r).filterMap g
  of_refusing b ops := by rw [L.of_refusing]
  of_exchange b c r hr := (L.of_exchange b c r hr).filterMap g

theorem Ledger.read_filterMap {β γ : Type} (L : Ledger β) (g : β → Option γ) (w : World) (i : ℕ) :
    (L.filterMap g).read w i = (L.read w i).filterMap g := by
  rw [read, read]
  cases w.backends[i]? <;> rfl

inductive Write where
  | string (key : String)
  | members (set : String) (keys : List String)
  deriving DecidableEq

def Write.ofCommand? : Command → Option Write
  | .set key _ _ => some (.string key)
  | .index set keys => some (.members set keys)
  | _ => none

def Write.ofWords? : List String → Option Write
  | "SET" :: key :: _ => some (.string key)
  | "SADD" :: set :: keys => some (.members set keys)
  | _ => none

/-- The strings that a backend was told to set and the members that it was told to add, the first of
them first. -/
def Backend.writes : Backend → List Write
  | .memory m => m.log.filterMap Write.ofCommand?
  | .redis c => c.sent.filterMap Write.ofWords?

def Request.writes : Request → List Write
  | .index _ [] => []
  | .index set (r :: rs) => (r :: rs).map (.string ·.key) ++ [.members set ((r :: rs).map (·.key))]
  | _ => []

theorem Write.ofWords?_commands (r : Request) :
    (Redis.commands r).filterMap Write.ofWords? = r.writes := by
  cases r with
  | time => rfl
  | ping => rfl
  | append stream id fields => rfl
  | index set rs =>
    cases rs with
    | nil => rfl
    | cons r rs =>
      have hset : ∀ rs : List Record, (rs.map Redis.setCommand).filterMap Write.ofWords? =
          rs.map (.string ·.key) := fun rs => by
        induction rs with
        | nil => rfl
        | cons r rs ih => exact congrArg (List.cons _) ih
      simp only [Redis.commands, Request.writes]
      rw [List.filterMap_cons_none rfl, List.filterMap_append, hset]
      rfl

theorem Write.ofCommand?_logged (r : Request) : r.logged.filterMap Write.ofCommand? = r.writes := by
  cases r with
  | index set rs =>
    cases rs with
    | nil => rfl
    | cons r rs =>
      have hset : ∀ rs : List Record, (rs.map Record.command).filterMap Write.ofCommand? =
          rs.map (.string ·.key) := fun rs => by
        induction rs with
        | nil => rfl
        | cons r rs ih => exact congrArg (List.cons _) ih
      rw [Request.logged, List.filterMap_append, hset]
      rfl
  | _ => rfl

theorem Memory.log_carried (m : Memory) (c : Clock) {r : Request} (hr : r.IsSingle) :
    Carried (m.exchange c r).2 m.log r.logged (m.exchange c r).1.log := by
  have hout := m.exchange_outcome c r
  generalize m.exchange c r = x at hout
  cases hout with
  | refused e _ => exact .of_error rfl
  | broken set done r rest =>
    obtain rfl := hr.eq_nil
    exact .of_none rfl
  | @index set rs hne _ =>
    obtain ⟨r, rs, rfl⟩ := List.exists_cons_of_ne_nil hne
    refine .inl ⟨rfl, ?_⟩
    show (Memory.putAll c m (r :: rs)).log ++ [_] = _
    rw [Memory.log_putAll, List.append_assoc]
    rfl
  | nothing set => exact .inl ⟨rfl, (List.append_nil _).symm⟩
  | _ => exact .inl ⟨rfl, rfl⟩

theorem Backend.writes_carried (b : Backend) (c : Clock) {r : Request} (hr : r.IsSingle) :
    Carried (b.exchange c r).2 b.writes r.writes (b.exchange c r).1.writes := by
  cases b with
  | memory m =>
    have hlog := (m.log_carried c hr).filterMap Write.ofCommand?
    rwa [Write.ofCommand?_logged] at hlog
  | redis s =>
    refine .inl ⟨rfl, ?_⟩
    simp only [Backend.exchange, Backend.writes, s.sent_exchange, List.filterMap_append,
      Write.ofWords?_commands]

def Ledger.writes : Ledger Write where
  of := Backend.writes
  adds := Request.writes
  of_refusing b ops := by cases b <;> rfl
  of_exchange b c _ hr := b.writes_carried c hr

end Storage

def World.writes (w : World) (i : ℕ) : List Write := Ledger.writes.read w i

/-! ### Runs -/

namespace Pipeline

variable {p : Pipeline} {w : World} {os : List Occasion} {β : Type}

/-- In every callback of a run the process survives and no backend fails. -/
def Prospers (p : Pipeline) : World → List Occasion → Prop
  | _, [] => True
  | w, o :: os => (p.on o.resource o.callback).Thrives ⟨w, o.weather⟩ ∧ Prospers p (p.meet w o) os

/-- What a run adds to a ledger was asked for a fact of one of its callbacks. -/
theorem exists_asked (hp : p.subscriptions = Handler.wired) (L : Ledger β) (w : World)
    (os : List Occasion) (i : ℕ) :
    ∃ new, L.read (p.meetAll w os) i = L.read w i ++ new ∧
      ∀ x ∈ new, ∃ o ∈ os, ∃ f ∈ p.facts o.resource o.callback, ∃ r, p.workplace.MayAsk f r ∧
        x ∈ L.adds r := by
  induction os generalizing w with
  | nil => exact ⟨[], (List.append_nil _).symm, nofun⟩
  | cons o os ih =>
    obtain ⟨first, hfirst, hsub, -⟩ := L.read_play (on_fansOut hp o).isSingle ⟨w, o.weather⟩ i
    obtain ⟨rest, hrest, hasked⟩ := ih (p.meet w o)
    have hmeet : L.read (p.meet w o) i = L.read w i ++ first := hfirst
    refine ⟨first ++ rest, by rw [meetAll_cons, hrest, hmeet, List.append_assoc], fun x hx => ?_⟩
    rcases List.mem_append.1 hx with hx | hx
    · obtain ⟨r, hr, hxr⟩ := List.mem_flatMap.1 (hsub.subset hx)
      obtain ⟨f, hf, hmay⟩ := (on_only hp o.resource o.callback).of_mem_requestsTo _ hr
      exact ⟨o, by simp, f, hf, r, hmay, hxr⟩
    · obtain ⟨o', ho', hfact⟩ := hasked x hx
      exact ⟨o', by simp [ho'], hfact⟩

end Pipeline

end SessionWatch
