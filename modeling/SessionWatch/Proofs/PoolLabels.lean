import SessionWatch.Proofs.FlatObject
import SessionWatch.Proofs.Keyspace
import SessionWatch.Proofs.Submission

/-!
The labels kept for each pool. Under its name a store in memory holds the labels of the last write
for that pool that it took, as text from which they are read back whatever characters they hold; and
the set of pools has just those that a write was taken for. Callbacks that have no labels written
leave both.
-/

namespace SessionWatch

open Storage Cluster

/-! ### Labels as text -/

namespace Table

theorem get?_foldl_insert {α : Type} {es : List (String × α)} (h : InOrder es) (t : Table α)
    (k : String) : (es.foldl (fun t e => t.insert e.1 e.2) t).get? k =
      (lookupEntry k es).or (t.get? k) := by
  induction es generalizing t with
  | nil => rfl
  | cons e es ih =>
    obtain ⟨hhead, htail⟩ := List.pairwise_cons.1 h
    rw [List.foldl_cons, ih htail, get?_insert]
    by_cases hk : e.1 = k
    · subst hk
      have hnone : lookupEntry e.1 es = none := lookupEntry_eq_none hhead
      simp [lookupEntry, hnone]
    · simp [lookupEntry, hk]

theorem ofList_entries {α : Type} (t : Table α) : ofList t.entries = t := by
  refine ext fun k => ?_
  rw [ofList, get?_foldl_insert t.inOrder]
  exact Option.or_none

end Table

namespace LabelsCache

def pair? (f : String × Json) : Option (String × String) := f.2.text?.map fun value => (f.1, value)

def decode? (text : String) : Option Labels :=
  match Json.parse? text with
  | some (.obj fields) => (fields.mapM pair?).map Table.ofList
  | _ => none

theorem mapM_pair? (es : List (String × String)) :
    (es.map fun e => (e.1, Json.str e.2)).mapM pair? = some es := by
  induction es with
  | nil => rfl
  | cons e es ih =>
    rw [List.map_cons, List.mapM_cons, ih]
    rfl

theorem decode?_payload (labels : Labels) : decode? (payload labels) = some labels := by
  have hflat : ∀ f ∈ labels.entries.map fun e => (e.1, Json.str e.2), f.2.IsScalar := by
    intro f hf
    obtain ⟨e, -, rfl⟩ := List.mem_map.1 hf
    trivial
  rw [decode?, payload, Json.ofPairs, Json.parse?_render_obj hflat]
  simp only [mapM_pair?, Option.map_some, Table.ofList_entries]

end LabelsCache

/-! ### One store in a plan -/

section Store

variable {α : Type} {P : Request → Prop} {p : Plan α} {c : Scene} {i : ℕ} {m : Memory}

theorem Scene.store_perform (s : Step) (hm : c.world.backends[i]? = some (.memory m)) :
    ∃ m', (c.perform s).1.world.backends[i]? = some (.memory m') ∧
      (m' = m ∨ ∃ r, s = .exchange i r ∧ m' =
        (({ m with failing := (c.weather 0).refused i } : Memory).exchange
          (c.weather 0).clock r).1) := by
  show ∃ m', (c.world.under (c.weather 0) s).1.backends[i]? = some (.memory m') ∧ _
  rw [World.backends_under, hm]
  cases s with
  | exchange k r =>
    by_cases hk : k = i
    · subst hk
      exact ⟨_, congrArg some (if_pos rfl), .inr ⟨r, rfl, rfl⟩⟩
    · exact ⟨m, congrArg some (if_neg hk), .inl rfl⟩
  | _ => exact ⟨m, rfl, .inl rfl⟩

theorem Plan.Only.store_play {I : Memory → Prop}
    (hI : ∀ (m : Memory) (ops : List Operation) (c : Clock) (r : Request), P r → I m →
      I (({ m with failing := ops }).exchange c r).1)
    (hp : p.Only P) (hm : c.world.backends[i]? = some (.memory m)) (h : I m) :
    ∃ m', (p.play c).1.world.backends[i]? = some (.memory m') ∧ I m' := by
  induction p generalizing c m with
  | done a => exact ⟨m, hm, h⟩
  | step s next ih =>
    obtain ⟨m₁, hm₁, hcases⟩ := Scene.store_perform s hm
    have h₁ : I m₁ := by
      rcases hcases with rfl | ⟨r, hs, rfl⟩
      · exact h
      · exact hI m _ _ r (hp.1 i r hs) h
    rw [play_step]
    rcases hs : c.perform s with ⟨c₁, _ | x⟩ <;> rw [hs] at hm₁
    · exact ⟨m₁, hm₁, h₁⟩
    · exact ih x (hp.2 x) hm₁ h₁

theorem Scene.fails_perform {r : Request} (hr : r.Lasting)
    (hm : c.world.backends[i]? = some (.memory m)) {x : Result r.Answer}
    (hx : (c.perform (.exchange i r)).2 = some x) :
    isFailure x = decide (r.operation ∈ (c.weather 0).refused i) := by
  have hasked : ((Backend.memory m).asked i (c.weather 0) r).2 = some x := by
    rw [← hx]
    show _ = (c.world.under (c.weather 0) (.exchange i r)).2
    rw [World.under_exchange, hm]
  by_cases h : r.operation ∈ (c.weather 0).refused i
  · obtain ⟨m', e, he, -⟩ := Backend.asked_of_refused m i (c.weather 0) h
    rw [he] at hasked
    obtain rfl := Option.some.inj hasked
    simpa using h
  · obtain ⟨a, ha⟩ := Memory.serve_lasting { m with failing := (c.weather 0).refused i }
      (c.weather 0).clock hr
    rw [Backend.asked_of_not_refused m i (c.weather 0) h, ha] at hasked
    obtain rfl := Option.some.inj hasked
    simpa using h

theorem Plan.Only.fails_at (hp : p.Only Request.Lasting)
    (hm : c.world.backends[i]? = some (.memory m)) {x : Request × Bool}
    (hx : x ∈ callsAt i (p.deeds c)) :
    ∃ k, x.2 = decide (x.1.operation ∈ (c.weather k).refused i) := by
  induction p generalizing c m with
  | done a => cases hx
  | step s next ih =>
    rw [deeds_step] at hx
    rcases hs : c.perform s with ⟨c₁, _ | y⟩ <;> rw [hs] at hx
    · cases hx
    · have hsplit := callsAt_append i [⟨s, y⟩] ((next y).deeds c₁)
      rw [List.singleton_append] at hsplit
      rw [hsplit, List.mem_append] at hx
      rcases hx with hx | hx
      · cases s with
        | exchange k r =>
          by_cases hk : k = i
          · subst hk
            obtain rfl : x = (r, isFailure y) := by simpa [callsAt, Deed.callAt] using hx
            exact ⟨0, Scene.fails_perform (hp.1 k r rfl) hm (congrArg Prod.snd hs)⟩
          · simp [callsAt, Deed.callAt, hk] at hx
        | _ => cases hx
      · obtain ⟨m₁, hm₁, -⟩ := Scene.store_perform s hm
        rw [hs] at hm₁
        obtain ⟨k, hk⟩ := ih y (hp.2 y) hm₁ hx
        have hweather : c₁.weather = fun n => c.weather (n + 1) := (congrArg (·.1.weather) hs).symm
        exact ⟨k + 1, by rw [hk, hweather]⟩

end Store

/-! ### What is written -/

namespace Storage

theorem Memory.exchange_of_no_writes (m : Memory) (c : Clock) {r : Request} (hr : r.writes = []) :
    (m.exchange c r).1.strings = m.strings ∧ (m.exchange c r).1.sets = m.sets := by
  have hout := m.exchange_outcome c r
  generalize m.exchange c r = x at hout
  cases hout with
  | @index set rs hne _ =>
    obtain ⟨r, rs, rfl⟩ := List.exists_cons_of_ne_nil hne
    simp [Request.writes] at hr
  | broken set done r rest => cases done <;> simp [Request.writes] at hr
  | _ => exact ⟨rfl, rfl⟩

theorem Request.lasting_of_no_writes {r : Request} (hr : r.writes = []) : r.Lasting := by
  cases r with
  | index set rs =>
    cases rs with
    | nil => exact nofun
    | cons r rs => simp [Request.writes] at hr
  | _ => trivial

/-- No string is ever to be gone. -/
def Memory.Undying (m : Memory) : Prop :=
  ∀ key s, m.strings.get? key = some s → s.deadline = none

theorem Memory.Undying.putAll {m : Memory} (h : m.Undying) (c : Clock) {rs : List Record}
    (hrs : ∀ r ∈ rs, r.expiry = none) : (Memory.putAll c m rs).Undying := by
  induction rs generalizing m with
  | nil => exact h
  | cons r rs ih =>
    have hput : (Memory.put c m r).Undying := by
      intro key s hs
      have hexpiry : r.expiry = none := hrs r (by simp)
      rw [Memory.put, Table.get?_insert] at hs
      split at hs
      · obtain rfl := Option.some.inj hs
        simp [hexpiry]
      · exact h key s hs
    exact ih hput fun x hx => hrs x (by simp [hx])

theorem Memory.Undying.exchange {m : Memory} (h : m.Undying) (c : Clock) {r : Request}
    (hr : r.Lasting) : (m.exchange c r).1.Undying := by
  have hout := m.exchange_outcome c r
  generalize m.exchange c r = x at hout
  cases hout with
  | index set _ _ => exact h.putAll c hr
  | broken set done r rest => exact h.putAll c fun x hx => hr x (by simp [hx])
  | _ => exact h

theorem Memory.Undying.get? {m : Memory} (h : m.Undying) (c : Clock) (key : String) :
    m.get? c key = m.holding.value? key := by
  cases hs : m.strings.get? key with
  | none => simp [Memory.get?, Memory.holding, hs]
  | some s => simp [Memory.get?, Memory.holding, hs, h key s hs]

namespace Holding

variable {h : Holding}

theorem takeAll_of_no_writes {calls : List (Request × Bool)}
    (hcalls : ∀ x ∈ calls, x.1.writes = []) :
    (h.takeAll calls).value? = h.value? ∧ (h.takeAll calls).members = h.members := by
  induction calls generalizing h with
  | nil => exact ⟨rfl, rfl⟩
  | cons x calls ih =>
    have htake : (h.take x.1).value? = h.value? ∧ (h.take x.1).members = h.members := by
      have hx := hcalls x (by simp)
      cases hreq : x.1 with
      | index set rs =>
        cases rs with
        | nil => exact ⟨rfl, rfl⟩
        | cons r rs =>
          rw [hreq] at hx
          simp [Request.writes] at hx
      | _ => exact ⟨rfl, rfl⟩
    have hrest := ih (h := if x.2 then h else h.take x.1) fun y hy => hcalls y (by simp [hy])
    show (takeAll _ calls).value? = _ ∧ (takeAll _ calls).members = _
    rw [hrest.1, hrest.2]
    split
    · exact ⟨rfl, rfl⟩
    · exact htake

end Holding

end Storage

def LabelsCache.lastFor (writes : List (String × Labels)) (pool : String) : Option Labels :=
  ((writes.filter fun x => x.1 = pool).getLast?).map (·.2)

theorem LabelsCache.lastFor_concat (writes : List (String × Labels)) (x : String × Labels)
    (pool : String) : lastFor (writes ++ [x]) pool =
      if x.1 = pool then some x.2 else lastFor writes pool := by
  by_cases hx : x.1 = pool <;> simp [lastFor, List.filter_append, hx]

namespace Storage.Holding

/-- Under each pool the text of the labels last written for it, and in the set the pools that were
written for. -/
structure Shelves (h : Holding) (set : String) (writes : List (String × Labels)) : Prop where
  text : ∀ pool, h.value? pool = (LabelsCache.lastFor writes pool).map LabelsCache.payload
  members : ∀ pool, (h.members set).contains pool = true ↔ ∃ labels, (pool, labels) ∈ writes

namespace Shelves

variable {h h' : Holding} {set : String} {writes : List (String × Labels)}

theorem congr (hs : h.Shelves set writes) (hvalue : h'.value? = h.value?)
    (hmembers : h'.members = h.members) : h'.Shelves set writes :=
  ⟨fun pool => hvalue ▸ hs.text pool, fun pool => hmembers ▸ hs.members pool⟩

theorem take (hs : h.Shelves set writes) (pool : String) (labels : Labels) (expiry : Option ℕ) :
    (h.take (.index set [⟨pool, LabelsCache.payload labels, expiry⟩])).Shelves set
      (writes ++ [(pool, labels)]) where
  text other := by
    rw [LabelsCache.lastFor_concat]
    by_cases hpool : pool = other
    · subst hpool
      simp [Holding.take, Holding.write, Holding.addMembers, Holding.run]
    · have hother := hs.text other
      simpa [Holding.take, Holding.write, Holding.addMembers, Holding.run,
        Function.update_of_ne (Ne.symm hpool), hpool] using hother
  members other := by
    have hother := hs.members other
    by_cases hpool : pool = other
    · subst hpool
      simp [Holding.take, Holding.write, Holding.addMembers, Holding.run, Table.contains]
    · simpa [Holding.take, Holding.write, Holding.addMembers, Holding.run, Table.contains, hpool,
        Ne.symm hpool] using hother

end Shelves

end Storage.Holding

/-! ### Callbacks and runs -/

namespace Pipeline

variable {p : Pipeline} {i : ℕ}

def labelsWrite (p : Pipeline) (x : String × Labels) : Request :=
  .index p.workplace.labelsCache.setKey [p.workplace.labelsCache.record x.1 x.2]

theorem labelsWrite_lasting (httl : p.workplace.labelsCache.ttl = 0) (x : String × Labels) :
    (p.labelsWrite x).Lasting := by
  intro r hr
  obtain rfl := List.mem_singleton.1 hr
  simp [LabelsCache.record, Record.expiresAfter, httl]

theorem on_writes_labels (hp : p.subscriptions = Handler.wired) (r : Resource) (c : Callback) :
    (p.on r c).Only fun q => q.writes = [] ∨ ∃ x, q = p.labelsWrite x := by
  refine (on_only hp r c).mono ?_
  rintro q ⟨f, -, hq⟩
  cases f with
  | node change node =>
    cases change with
    | updateLabels =>
      obtain ⟨pool, -, rfl⟩ := hq
      exact .inr ⟨(pool, node.labels), rfl⟩
    | recordProvision =>
      obtain rfl : q = .time := hq
      exact .inl rfl
    | _ => exact hq.elim
  | pod change pod =>
    cases change with
    | add => exact hq.elim
    | recordSchedule =>
      obtain rfl : q = .time := hq
      exact .inl rfl
    | delete => obtain rfl | ⟨t, rfl⟩ := hq <;> exact .inl rfl
    | ready => obtain rfl | ⟨tn, tp, t, rfl⟩ := hq <;> exact .inl rfl
  | nodeWatchFailed message => exact hq.elim
  | podWatchFailed message => exact hq.elim

theorem on_lasting (hp : p.subscriptions = Handler.wired)
    (httl : p.workplace.labelsCache.ttl = 0) (r : Resource) (c : Callback) :
    (p.on r c).Only Request.Lasting := by
  refine (on_writes_labels hp r c).mono ?_
  rintro q (hq | ⟨x, rfl⟩)
  · exact Request.lasting_of_no_writes hq
  · exact labelsWrite_lasting httl x

theorem callsAt_afterStamps {α : Type} (q : Plan α) (n : ℕ) (c : Scene) :
    ∃ c' : Scene, c'.world.backends = c.world.backends ∧
      callsAt i ((q.afterStamps n).deeds c) = callsAt i (q.deeds c') := by
  induction n generalizing c with
  | zero => exact ⟨c, rfl, rfl⟩
  | succ n ih => exact ih (c.perform .stamp).1

/-- A callback that has labels written asks each backend once to write, and for just this, if the
process survives the asking. -/
theorem callsAt_of_labelled_of_ends (hp : p.subscriptions = Handler.wired)
    (hi : i < p.workplace.backends) {w : World} {o : Occasion} {x : String × Labels}
    (hends : ∀ c : Scene, c.world.backends = w.backends →
      ((fanOut p.workplace.backends (p.labelsWrite x)).play c).2.isSome)
    (h : p.labelled? o.resource o.callback = some x) :
    ∃ failed after, callsAt i (p.deeds w o) = (p.labelsWrite x, failed) :: after ∧
      ∀ y ∈ after, y.1.writes = [] := by
  obtain ⟨node, rest, n, hon, hnamed, hrest⟩ := on_of_labelled hp h
  obtain ⟨pool, hpool, rfl⟩ := Option.map_eq_some_iff.1 hnamed
  obtain ⟨g, hattend⟩ : ∃ g : Result UInt64 → Result Unit,
      p.workplace.attend (.node .updateLabels node) =
        (fanOut p.workplace.backends (p.labelsWrite (pool, node.labels))).bind fun a =>
          .done (g a) := Workplace.attend_updateLabels hpool
  obtain ⟨c, hbackends, hc⟩ := callsAt_afterStamps (i := i)
    ((p.workplace.relay (.node .updateLabels node :: rest)).bind fun _ => .done ()) n ⟨w, o.weather⟩
  rw [deeds, hon, hc, Workplace.relay, hattend, Plan.bind_assoc, Plan.bind_assoc, Plan.deeds_bind,
    callsAt_append]
  obtain ⟨k, -, hasked, hall⟩ :=
    requestsTo_fanOut p.workplace.backends (p.labelsWrite (pool, node.labels)) c
  have hone := hasked i
  rw [hall (hends c hbackends), if_pos hi] at hone
  obtain ⟨⟨q, failed⟩, hfirst, rfl⟩ := List.map_eq_singleton_iff.1 hone
  rw [hfirst]
  refine ⟨failed, _, rfl, fun y hy => ?_⟩
  let asks := fanOut p.workplace.backends (p.labelsWrite (pool, node.labels))
  rcases hplay : asks.play c with ⟨c', _ | a⟩ <;> rw [hplay] at hy
  · cases hy
  · have honly : ((p.workplace.relay rest).bind fun _ => (.done () : Plan Unit)).Only
        fun q => q.writes = [] :=
      (p.workplace.relay_only hrest).bind fun _ => trivial
    cases hga : g a with
    | error e => simp [hga, callsAt, Plan.deeds] at hy
    | ok u =>
      simp only [hga, Plan.bind_done] at hy
      exact honly.of_mem_requestsTo c' (List.mem_map_of_mem hy)

theorem callsAt_of_labelled (hp : p.subscriptions = Handler.wired)
    (httl : p.workplace.labelsCache.ttl = 0) (hi : i < p.workplace.backends) (w : World)
    {o : Occasion} {x : String × Labels}
    (h : p.labelled? o.resource o.callback = some x) :
    ∃ failed after, callsAt i (p.deeds w o) = (p.labelsWrite x, failed) :: after ∧
      ∀ y ∈ after, y.1.writes = [] :=
  callsAt_of_labelled_of_ends hp hi
    (fun c _ => (fanOut_only (labelsWrite_lasting httl x) _).ends c) h

theorem callsAt_of_not_labelled (hp : p.subscriptions = Handler.wired) (w : World) {o : Occasion}
    (h : p.labelled? o.resource o.callback = none) :
    ∀ y ∈ callsAt i (p.deeds w o), y.1.writes = [] := by
  have hnone : p.pool? o.resource o.callback = none := by rw [pool?_eq, h]; rfl
  intro y hy
  exact (on_only_of_pool?_none hp hnone).of_mem_requestsTo _ (List.mem_map_of_mem hy)

def taken (p : Pipeline) (i : ℕ) : World → List Occasion → List (String × Labels)
  | _, [] => []
  | w, o :: os =>
    ((p.labelled? o.resource o.callback).toList.filter fun x =>
      (p.labelsWrite x, false) ∈ callsAt i (p.deeds w o)) ++ taken p i (p.meet w o) os

theorem shelves_deeds (hp : p.subscriptions = Handler.wired)
    (httl : p.workplace.labelsCache.ttl = 0) (hi : i < p.workplace.backends) (w : World)
    (o : Occasion) {h : Holding} {writes : List (String × Labels)}
    (hs : h.Shelves p.workplace.labelsCache.setKey writes) :
    (h.takeAll (callsAt i (p.deeds w o))).Shelves p.workplace.labelsCache.setKey
      (writes ++ (p.labelled? o.resource o.callback).toList.filter fun x =>
        (p.labelsWrite x, false) ∈ callsAt i (p.deeds w o)) := by
  cases hlabelled : p.labelled? o.resource o.callback with
  | none =>
    obtain ⟨hvalue, hmembers⟩ :=
      Holding.takeAll_of_no_writes (h := h) (callsAt_of_not_labelled hp w (i := i) hlabelled)
    rw [Option.toList_none, List.filter_nil, List.append_nil]
    exact hs.congr hvalue hmembers
  | some x =>
    obtain ⟨failed, after, hcalls, hafter⟩ := callsAt_of_labelled hp httl hi w hlabelled
    have hwrites : (p.labelsWrite x).writes ≠ [] := by simp [labelsWrite, Request.writes]
    have hmem : (p.labelsWrite x, false) ∈ callsAt i (p.deeds w o) ↔ failed = false := by
      rw [hcalls, List.mem_cons]
      constructor
      · rintro (heq | hlater)
        · exact (congrArg Prod.snd heq).symm
        · exact absurd (hafter _ hlater) hwrites
      · rintro rfl
        exact .inl rfl
    have htaken : decide ((p.labelsWrite x, false) ∈ callsAt i (p.deeds w o)) = !failed := by
      rw [decide_eq_decide.2 hmem]
      cases failed <;> rfl
    obtain ⟨hvalue, hmembers⟩ :=
      Holding.takeAll_of_no_writes (h := if failed then h else h.take (p.labelsWrite x)) hafter
    rw [Option.toList_some, List.filter_singleton, htaken, hcalls]
    refine Holding.Shelves.congr ?_ hvalue hmembers
    cases failed with
    | true => simpa using hs
    | false => exact hs.take x.1 x.2 _

theorem shelves_meetAll (hp : p.subscriptions = Handler.wired)
    (httl : p.workplace.labelsCache.ttl = 0) (hi : i < p.workplace.backends) (w : World)
    (os : List Occasion) {h : Holding} {writes : List (String × Labels)}
    (hs : h.Shelves p.workplace.labelsCache.setKey writes) :
    (h.takeAll (callsAt i (p.work w os))).Shelves p.workplace.labelsCache.setKey
      (writes ++ p.taken i w os) := by
  induction os generalizing w h writes with
  | nil => simpa [work, taken, callsAt, Holding.takeAll] using hs
  | cons o os ih =>
    rw [work, callsAt_append, Holding.takeAll_append, taken, ← List.append_assoc]
    exact ih (p.meet w o) (shelves_deeds hp httl hi w o hs)

end Pipeline

/-- All backends are stores in memory without a string or a set. -/
def World.IsBare (w : World) : Prop :=
  ∀ b ∈ w.backends, ∃ m, b = .memory m ∧ m.strings = ∅ ∧ m.sets = ∅

theorem Pipeline.store_meetAll {p : Pipeline} {P : Request → Prop} {I : Memory → Prop}
    (hI : ∀ (m : Memory) (ops : List Operation) (c : Clock) (r : Request), P r → I m →
      I (({ m with failing := ops }).exchange c r).1)
    (hp : ∀ r c, (p.on r c).Only P) {w : World} (os : List Occasion) {i : ℕ} {m : Memory}
    (hm : w.backends[i]? = some (.memory m)) (h : I m) :
    ∃ m', (p.meetAll w os).backends[i]? = some (.memory m') ∧ I m' := by
  induction os generalizing w m with
  | nil => exact ⟨m, hm, h⟩
  | cons o os ih =>
    obtain ⟨m₁, hm₁, h₁⟩ :=
      (hp o.resource o.callback).store_play (c := ⟨w, o.weather⟩) hI hm h
    exact ih hm₁ h₁

namespace Pipeline

variable {p : Pipeline} {i : ℕ} {m : Memory}

theorem shelves_of_isBare (hp : p.subscriptions = Handler.wired)
    (httl : p.workplace.labelsCache.ttl = 0) (hi : i < p.workplace.backends) {w : World}
    (hw : w.IsBare) (hlength : i < w.backends.length) (os : List Occasion) :
    ∃ m, (p.meetAll w os).backends[i]? = some (.memory m) ∧ m.Undying ∧
      m.holding.Shelves p.workplace.labelsCache.setKey (p.taken i w os) := by
  obtain ⟨m, hm, hstrings, hsets⟩ := hw _ (List.getElem_mem hlength)
  have hstore : w.backends[i]? = some (.memory m) := by rw [List.getElem?_eq_getElem hlength, hm]
  have hundying : m.Undying := by simp [Memory.Undying, hstrings]
  have hbare : m.holding.Shelves p.workplace.labelsCache.setKey [] := by
    refine ⟨fun pool => ?_, fun pool => ?_⟩
    · simp [Memory.holding, hstrings, LabelsCache.lastFor]
    · simp [Memory.holding, Memory.members, hsets, Table.contains]
  obtain ⟨m', hm', hundying'⟩ := store_meetAll
    (fun m ops c r hr hI => Memory.Undying.exchange (m := { m with failing := ops }) hI c hr)
    (on_lasting hp httl) os hstore hundying
  have hheld := holdingAt_meetAll hp w os i
  rw [World.holdingAt, hm', World.holdingAt, hstore] at hheld
  have hholding : m'.holding = m.holding.takeAll (callsAt i (p.work w os)) := Option.some.inj hheld
  have hshelves := shelves_meetAll hp httl hi w os hbare
  rw [← hholding, List.nil_append] at hshelves
  exact ⟨m', hm', hundying', hshelves⟩

theorem writes_of_labelled (hp : p.subscriptions = Handler.wired)
    (httl : p.workplace.labelsCache.ttl = 0) (hi : i < p.workplace.backends) {v : World}
    (hm : v.backends[i]? = some (.memory m)) {o : Occasion} {x : String × Labels}
    (h : p.labelled? o.resource o.callback = some x) :
    ∃ k, ((callsAt i (p.deeds v o)).filter fun y => y.1.writes ≠ []) =
      [(p.labelsWrite x, decide (.index ∈ (o.weather k).refused i))] := by
  obtain ⟨failed, after, hcalls, hafter⟩ := callsAt_of_labelled hp httl hi v h
  have hlasting := on_lasting hp httl o.resource o.callback
  have hmem : (p.labelsWrite x, failed) ∈ callsAt i (p.deeds v o) := by
    rw [hcalls]
    exact List.mem_cons_self
  obtain ⟨k, hk⟩ := hlasting.fails_at (c := ⟨v, o.weather⟩) hm hmem
  have hwrites : (p.labelsWrite x).writes ≠ [] := by simp [labelsWrite, Request.writes]
  have hnone : after.filter (fun y => y.1.writes ≠ []) = [] :=
    List.filter_eq_nil_iff.2 fun y hy => by simpa using hafter y hy
  refine ⟨k, ?_⟩
  rw [hcalls, List.filter_cons_of_pos (by simpa using hwrites), hnone]
  exact congrArg (fun b => [(p.labelsWrite x, b)]) hk

theorem kept_of_not_labelled (hp : p.subscriptions = Handler.wired) {v : World}
    (hm : v.backends[i]? = some (.memory m)) {o : Occasion}
    (h : p.labelled? o.resource o.callback = none) :
    ∃ m', (p.meet v o).backends[i]? = some (.memory m') ∧
      m'.strings = m.strings ∧ m'.sets = m.sets := by
  have hnone : p.pool? o.resource o.callback = none := by rw [pool?_eq, h]; rfl
  refine (on_only_of_pool?_none hp hnone).store_play (c := ⟨v, o.weather⟩)
    (I := fun m' => m'.strings = m.strings ∧ m'.sets = m.sets) (fun m' ops c r hr hI => ?_) hm
    ⟨rfl, rfl⟩
  obtain ⟨hstrings, hsets⟩ := Memory.exchange_of_no_writes { m' with failing := ops } c hr
  exact ⟨hstrings.trans hI.1, hsets.trans hI.2⟩

end Pipeline

/-- While labels never expire, a store holds under each pool the labels of the last write for it
that it took, from where they are read back as the node had them, and in the set just the pools of
the writes that it took. A callback that has labels written asks each store once to write them, and
a store takes them unless it refuses to then; all other callbacks leave the strings and the sets.
Labels are written of an observed node that names a pool, when it is added, and when it is updated
with all labels of its driver there. -/
theorem labels_of_last_taken (s : Settings) (schema : Schema)
    (hforever : s.poolLabelsTtlSecs = 0) {w : World} (hw : w.IsBare) (os : List Occasion) :
    let n := w.backends.length
    let p := s.pipeline n Handler.wired schema
    (∀ i < n, ∃ m, (p.meetAll w os).backends[i]? = some (.memory m) ∧
      (∀ clock pool, (m.get? clock pool).map LabelsCache.decode? =
        (LabelsCache.lastFor (p.taken i w os) pool).map some) ∧
      ∀ pool, (m.members s.poolSetKey).contains pool = true ↔
        ∃ labels, (pool, labels) ∈ p.taken i w os) ∧
    (∀ (v : World) (o : Occasion) (i : ℕ) (m : Memory), i < n →
      v.backends[i]? = some (.memory m) →
      match p.labelled? o.resource o.callback with
      | some x => ∃ k, ((callsAt i (p.deeds v o)).filter fun y => y.1.writes ≠ []) =
          [(p.labelsWrite x, decide (.index ∈ (o.weather k).refused i))]
      | none => ∃ m', (p.meet v o).backends[i]? = some (.memory m') ∧
          m'.strings = m.strings ∧ m'.sets = m.sets) ∧
    ∀ (r : Resource) (c : Callback) (pool : String) (labels : Labels),
      p.labelled? r c = some (pool, labels) ↔
        r = .nodes ∧ labels.get? s.poolLabel = some pool ∧
          ∃ o name, NodeWatch.Qualifies schema s.observeeLabels o name ∧ o.labels = labels ∧
            (c = .added o ∨ ∃ old, c = .updated old o ∧
              ∀ label ∈ NodeWatch.driverLabels, labels.contains label = true) := by
  intro n p
  have httl : p.workplace.labelsCache.ttl = 0 := by
    simp [p, Settings.pipeline, Settings.labelsCache, Settings.milliseconds, hforever]
  refine ⟨fun i hi => ?_, fun v o i m hi hm => ?_, fun r c pool labels =>
    Pipeline.labelled?_eq_some_iff⟩
  · obtain ⟨m, hm, hundying, hshelves⟩ := Pipeline.shelves_of_isBare (p := p) rfl httl hi hw hi os
    refine ⟨m, hm, fun clock pool => ?_, hshelves.members⟩
    rw [hundying.get? clock pool, hshelves.text pool, Option.map_map]
    exact congrArg (Option.map · _) (funext LabelsCache.decode?_payload)
  · cases hlabelled : p.labelled? o.resource o.callback with
    | none => exact Pipeline.kept_of_not_labelled rfl hm hlabelled
    | some x => exact Pipeline.writes_of_labelled rfl httl hi hm hlabelled

/-! Two nodes of one pool, of which the second backend does not take the second. -/

namespace Sample

def quoting : Labels := .ofList [("agentpool", "a"), ("note", "\"\\\n\u00e9")]

def plain : Labels := .ofList [("agentpool", "a"), ("zone", "1")]

def labelled (name : String) (labels : Labels) : Object :=
  { metadata := { name := some name, labels := some labels } }

def sharing : List Occasion :=
  [⟨.nodes, .added (labelled "n1" quoting), calm 1000⟩,
    ⟨.nodes, .added (labelled "n2" plain),
      fun _ => ⟨⟨2000, 0⟩, fun i => if i = 1 then [.index] else []⟩⟩,
    ⟨.nodes, .deleted (labelled "n1" quoting), calm 3000⟩]

end Sample

theorem labels_of_last_taken_sample :
    let p := Settings.pipeline {} 2 Handler.wired
    Settings.poolLabelsTtlSecs {} = 0 ∧ Sample.world.IsBare ∧
      (∃ m, (p.meetAll Sample.world Sample.sharing).backends[0]? = some (.memory m) ∧
        (m.get? ⟨0, 0⟩ "a").map LabelsCache.decode? = some (some Sample.plain)) ∧
      ∃ m, (p.meetAll Sample.world Sample.sharing).backends[1]? = some (.memory m) ∧
        (m.get? ⟨0, 0⟩ "a").map LabelsCache.decode? = some (some Sample.quoting) ∧
        (m.members "gpu-agent-pools").contains "a" = true := by
  intro p
  have hw : Sample.world.IsBare := by
    intro b hb
    simp only [Sample.world, List.mem_cons, List.not_mem_nil, or_false] at hb
    rcases hb with rfl | rfl <;> exact ⟨_, rfl, rfl, rfl⟩
  have hfirst : LabelsCache.lastFor (p.taken 0 Sample.world Sample.sharing) "a" =
      some Sample.plain := by decide +kernel
  have hsecond : LabelsCache.lastFor (p.taken 1 Sample.world Sample.sharing) "a" =
      some Sample.quoting := by decide +kernel
  have hmember : ("a", Sample.quoting) ∈ p.taken 1 Sample.world Sample.sharing := by decide +kernel
  have hheld := (labels_of_last_taken {} .v1 rfl hw Sample.sharing).1
  obtain ⟨m, hm, htext, -⟩ := hheld 0 (by decide)
  obtain ⟨m', hm', htext', hmembers⟩ := hheld 1 (by decide)
  exact ⟨rfl, hw, ⟨m, hm, (htext ⟨0, 0⟩ "a").trans (congrArg (Option.map some) hfirst)⟩, m', hm',
    (htext' ⟨0, 0⟩ "a").trans (congrArg (Option.map some) hsecond), (hmembers "a").2 ⟨_, hmember⟩⟩

end SessionWatch
