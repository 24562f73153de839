import SessionWatch.Proofs.Ledger
import SessionWatch.Proofs.Provisioning

/-!
The keys that the labels of agent pools are written under. A key is the pool that a node names, as
it is: nothing keeps it from being one of the keys that the monitor has other uses for, or from
being empty. A node that names no pool is passed over.
-/

namespace SessionWatch

open Storage Cluster

def Storage.Write.keys : Write → List String
  | .string key => [key]
  | .members _ keys => keys

/-- The keys that a monitor uses for itself: the set of all pools, and the streams of tasks. -/
def Settings.ownKeys (s : Settings) : List String := [s.poolSetKey, s.enqueueStream, s.deleteStream]

def Cluster.NodeWatch.driverLabels : List String := [majorLabel, minorLabel, revisionLabel]

theorem Cluster.NodeWatch.isSome_driverVersion (labels : Labels) :
    (driverVersion labels).toOption.isSome = driverLabels.all labels.contains := by
  cases hmajor : labels.get? majorLabel with
  | none => simp [driverLabels, Table.contains, driverVersion, part, hmajor]; rfl
  | some major =>
    cases hminor : labels.get? minorLabel with
    | none => simp [driverLabels, Table.contains, driverVersion, part, hmajor, hminor]; rfl
    | some minor =>
      cases hrevision : labels.get? revisionLabel <;>
        simp [driverLabels, Table.contains, driverVersion, part, hmajor, hminor, hrevision] <;> rfl

namespace Pipeline

variable (p : Pipeline)

/-- The pool that a callback names: that of an observed node that is added, or that is updated while
the version of its driver is known. -/
def pool? : Resource → Callback → Option String
  | .nodes, .added o =>
    (NodeWatch.observed? p.schema p.observee o).bind fun n =>
      n.labels.get? p.workplace.labelsCache.poolLabel
  | .nodes, .updated _ o =>
    (NodeWatch.observed? p.schema p.observee o).bind fun n =>
      (NodeWatch.driverVersion n.labels).toOption.bind fun _ =>
        n.labels.get? p.workplace.labelsCache.poolLabel
  | _, _ => none

def named? (labels : Labels) : Option (String × Labels) :=
  (labels.get? p.workplace.labelsCache.poolLabel).map fun pool => (pool, labels)

/-- The labels that a callback has written, and the pool that they are for: those of an observed
node that is added, or that is updated with all the labels that the version of its driver is made
of. -/
def labelled? : Resource → Callback → Option (String × Labels)
  | .nodes, .added o => (NodeWatch.observed? p.schema p.observee o).bind fun n => p.named? n.labels
  | .nodes, .updated _ o =>
    (NodeWatch.observed? p.schema p.observee o).bind fun n =>
      if NodeWatch.driverLabels.all n.labels.contains then p.named? n.labels else none
  | _, _ => none

def poolWrites (pool : String) : List Write :=
  [.string pool, .members p.workplace.labelsCache.setKey [pool]]

/-- Some callback of a run names the pool. -/
def Names (os : List Occasion) (pool : String) : Prop :=
  ∃ o ∈ os, p.pool? o.resource o.callback = some pool

variable {p}

theorem named?_eq_some_iff {labels labels' : Labels} {pool : String} :
    p.named? labels = some (pool, labels') ↔
      labels = labels' ∧ labels'.get? p.workplace.labelsCache.poolLabel = some pool := by
  simp only [named?, Option.map_eq_some_iff, Prod.mk.injEq]
  constructor
  · rintro ⟨_, hpool, rfl, rfl⟩
    exact ⟨rfl, hpool⟩
  · rintro ⟨rfl, hpool⟩
    exact ⟨pool, hpool, rfl, rfl⟩

theorem get?_of_named? {labels : Labels} {x : String × Labels} (h : p.named? labels = some x) :
    labels.get? p.workplace.labelsCache.poolLabel = some x.1 := by
  obtain ⟨rfl, hpool⟩ := named?_eq_some_iff.1 h
  exact hpool

theorem pool?_eq (r : Resource) (c : Callback) :
    p.pool? r c = (p.labelled? r c).map (·.1) := by
  have hnamed : ∀ labels : Labels,
      (p.named? labels).map (·.1) = labels.get? p.workplace.labelsCache.poolLabel := by
    intro labels
    simp [named?, Function.comp_def]
  cases r with
  | pods => rfl
  | nodes =>
    cases c with
    | added o => simp [pool?, labelled?, Option.map_bind, hnamed]
    | updated old o =>
      have hversion : ∀ labels : Labels, ((NodeWatch.driverVersion labels).toOption.bind fun _ =>
          labels.get? p.workplace.labelsCache.poolLabel) =
          (if NodeWatch.driverLabels.all labels.contains then p.named? labels else none).map
            (·.1) := by
        intro labels
        rw [← NodeWatch.isSome_driverVersion]
        cases (NodeWatch.driverVersion labels).toOption with
        | none => rfl
        | some v => exact (hnamed labels).symm
      simp only [pool?, labelled?, Option.map_bind, Function.comp_def, hversion]
    | deleted o => rfl
    | failed message => rfl

/-- Labels are written of an observed node that names a pool, when it is added, and when it is
updated with all labels of its driver there. -/
theorem labelled?_eq_some_iff {r : Resource} {c : Callback} {pool : String} {labels : Labels} :
    p.labelled? r c = some (pool, labels) ↔
      r = .nodes ∧ labels.get? p.workplace.labelsCache.poolLabel = some pool ∧
        ∃ o name, NodeWatch.Qualifies p.schema p.observee o name ∧ o.labels = labels ∧
          (c = .added o ∨ ∃ old, c = .updated old o ∧
            ∀ label ∈ NodeWatch.driverLabels, labels.contains label = true) := by
  constructor
  · intro h
    unfold labelled? at h
    split at h
    · next o =>
      obtain ⟨n, hn, h⟩ := Option.bind_eq_some_iff.1 h
      obtain ⟨name, hqualifies, rfl⟩ := NodeWatch.observed?_eq_some_iff.1 hn
      obtain ⟨hlabels, hpool⟩ := named?_eq_some_iff.1 h
      exact ⟨rfl, hpool, o, name, hqualifies, hlabels, .inl rfl⟩
    · next old o =>
      obtain ⟨n, hn, h⟩ := Option.bind_eq_some_iff.1 h
      obtain ⟨name, hqualifies, rfl⟩ := NodeWatch.observed?_eq_some_iff.1 hn
      obtain ⟨hall, h⟩ := Option.ite_none_right_eq_some.1 h
      obtain ⟨rfl, hpool⟩ := named?_eq_some_iff.1 h
      exact ⟨rfl, hpool, o, name, hqualifies, rfl, .inr ⟨old, rfl, List.all_eq_true.1 hall⟩⟩
    · cases h
  · rintro ⟨rfl, hpool, o, name, hqualifies, rfl, rfl | ⟨old, rfl, hall⟩⟩
    · have hn := NodeWatch.observed?_eq_some_iff.2 ⟨name, hqualifies, rfl⟩
      exact (congrArg (Option.bind · _) hn).trans (named?_eq_some_iff.2 ⟨rfl, hpool⟩)
    · have hn := NodeWatch.observed?_eq_some_iff.2 ⟨name, hqualifies, rfl⟩
      refine (congrArg (Option.bind · _) hn).trans ?_
      exact (if_pos (List.all_eq_true.2 hall)).trans (named?_eq_some_iff.2 ⟨rfl, hpool⟩)

theorem pool?_of_updateLabels {r : Resource} {c : Callback} {node : Node} {pool : String}
    (h : .node .updateLabels node ∈ p.facts r c)
    (hpool : node.labels.get? p.workplace.labelsCache.poolLabel = some pool) :
    p.pool? r c = some pool := by
  obtain ⟨rfl, b, hb, hmem⟩ := node_of_mem_facts h
  cases c with
  | added o =>
    obtain ⟨n, hn, rfl⟩ := Option.map_eq_some_iff.1 hb
    obtain rfl : node =
        { n with driverVersion := (NodeWatch.driverVersion n.labels).toOption.getD "" } := by
      simpa [NodeWatch.addition] using hmem
    simpa [pool?, hn] using hpool
  | updated old o =>
    obtain ⟨n, hn, rfl⟩ := Option.map_eq_some_iff.1 hb
    unfold NodeWatch.update at hmem
    split at hmem
    · next v hv =>
      obtain rfl : node = { n with driverVersion := v } := by simpa using hmem
      simpa [pool?, hn, hv, Except.toOption] using hpool
    · simp at hmem
  | deleted o =>
    obtain ⟨n, -, rfl⟩ := Option.map_eq_some_iff.1 hb
    simp [NodeWatch.deletion] at hmem
  | failed message => cases hb

theorem mem_poolWrites_of_mayAsk {r : Resource} {c : Callback} {f : Fact} {q : Request} {x : Write}
    (hf : f ∈ p.facts r c) (hq : p.workplace.MayAsk f q) (hx : x ∈ q.writes) :
    ∃ pool, p.pool? r c = some pool ∧ x ∈ p.poolWrites pool := by
  cases f with
  | node change node =>
    cases change with
    | updateLabels =>
      obtain ⟨pool, hpool, rfl⟩ := hq
      exact ⟨pool, pool?_of_updateLabels hf hpool, hx⟩
    | recordProvision =>
      obtain rfl : q = .time := hq
      cases hx
    | _ => exact hq.elim
  | pod change pod =>
    cases change with
    | add => exact hq.elim
    | recordSchedule =>
      obtain rfl : q = .time := hq
      cases hx
    | delete => obtain rfl | ⟨t, rfl⟩ := hq <;> cases hx
    | ready => obtain rfl | ⟨tn, tp, t, rfl⟩ := hq <;> cases hx
  | nodeWatchFailed message => exact hq.elim
  | podWatchFailed message => exact hq.elim

theorem on_only_of_pool?_none (hp : p.subscriptions = Handler.wired) {r : Resource} {c : Callback}
    (hnone : p.pool? r c = none) : (p.on r c).Only fun q => q.writes = [] := by
  refine (on_only hp r c).mono ?_
  rintro q ⟨f, hf, hq⟩
  refine List.eq_nil_iff_forall_not_mem.2 fun x hx => ?_
  obtain ⟨pool, hpool, -⟩ := mem_poolWrites_of_mayAsk hf hq hx
  rw [hnone] at hpool
  cases hpool

theorem writes_meet_of_pool?_none (hp : p.subscriptions = Handler.wired) (w : World) {o : Occasion}
    (hnone : p.pool? o.resource o.callback = none) (i : ℕ) :
    (p.meet w o).writes i = w.writes i :=
  Ledger.writes.read_play_of_only i ⟨w, o.weather⟩ (on_fansOut hp o).isSingle
    (on_only_of_pool?_none hp hnone)

end Pipeline

/-! ### Callbacks that thrive -/

namespace Workplace

variable {w : Workplace} {i : ℕ} {node : Node} {pool : String}

theorem attend_updateLabels (hpool : node.labels.get? w.labelsCache.poolLabel = some pool) :
    ∃ g : Result UInt64 → Result Unit, w.attend (.node .updateLabels node) =
      (fanOut w.backends (.index w.labelsCache.setKey
        [w.labelsCache.record pool node.labels])).bind fun a => .done (g a) := by
  refine ⟨fun a => match a with
    | .ok _ => .ok ()
    | .error r => .error ((r.because (.handling .storage)).attach (.agentPool pool)), ?_⟩
  show w.labelsCache.update w.backends node = _
  unfold LabelsCache.update
  rw [hpool]
  refine congrArg (Plan.bind _) (funext fun a => ?_)
  cases a <;> rfl

theorem updateLabels_gains (hi : i < w.backends) (c : Scene)
    (hpool : node.labels.get? w.labelsCache.poolLabel = some pool) :
    Ledger.writes.Gains i (w.attend (.node .updateLabels node)) c
      [.string pool, .members w.labelsCache.setKey [pool]] := by
  have hask : Ledger.writes.Gains i
      (fanOut w.backends (.index w.labelsCache.setKey [w.labelsCache.record pool node.labels])) c
      [.string pool, .members w.labelsCache.setKey [pool]] := Ledger.writes.gains_fanOut c hi le_rfl
  obtain ⟨g, hattend⟩ := attend_updateLabels hpool
  rw [hattend]
  exact hask.before_nothing fun c' a _ _ => Ledger.writes.gains_done i _ c'

/-- Of facts that are relayed only the first has labels written. -/
theorem relay_updateLabels_gains (hi : i < w.backends) (c : Scene) {fs : List Fact}
    (hpool : node.labels.get? w.labelsCache.poolLabel = some pool)
    (hfs : ∀ f ∈ fs, ∀ q, w.MayAsk f q → q.writes = []) :
    Ledger.writes.Gains i (w.relay (.node .updateLabels node :: fs)) c
      [.string pool, .members w.labelsCache.setKey [pool]] := by
  refine (updateLabels_gains hi c hpool).before_nothing fun c' a _ _ => ?_
  cases a with
  | ok u => exact Ledger.writes.gains_of_only i c' (w.relay_fansOut fs).isSingle (w.relay_only hfs)
  | error r => exact Ledger.writes.gains_done i _ c'

end Workplace

namespace Pipeline

variable {p : Pipeline} {i : ℕ}

theorem on_of_batch (hp : p.subscriptions = Handler.wired) {c : Callback} {b : NodeWatch.Batch}
    (hb : NodeWatch.batch? p.schema p.observee c = some b) :
    p.on .nodes c =
      ((p.workplace.relay b.facts).bind fun _ => .done ()).afterStamps b.facts.length := by
  rw [on_eq_relayEach hp, publications_of_batch hb]
  rfl

theorem on_of_batch_cons (hp : p.subscriptions = Handler.wired) {c : Callback} {node : String}
    {first second : Fact} {rest : List Fact} (hfirst : p.workplace.attend first = .done (.ok ()))
    (hb : NodeWatch.batch? p.schema p.observee c = some ⟨node, first :: second :: rest⟩) :
    p.on .nodes c = ((p.workplace.relay (second :: rest)).bind fun _ => .done ()).afterStamps
      (first :: second :: rest).length := by
  rw [on_of_batch hp hb, Workplace.relay, hfirst]
  rfl

theorem on_of_labelled (hp : p.subscriptions = Handler.wired) {r : Resource} {c : Callback}
    {x : String × Labels} (h : p.labelled? r c = some x) :
    ∃ (node : Node) (rest : List Fact) (n : ℕ),
      p.on r c = ((p.workplace.relay (.node .updateLabels node :: rest)).bind fun _ =>
        .done ()).afterStamps n ∧
      p.named? node.labels = some x ∧
      ∀ f ∈ rest, ∀ q, p.workplace.MayAsk f q → q.writes = [] := by
  cases r with
  | pods => cases h
  | nodes =>
    cases c with
    | added o =>
      obtain ⟨n, hn, hnamed⟩ := Option.bind_eq_some_iff.1 h
      let node : Node :=
        { n with driverVersion := (NodeWatch.driverVersion n.labels).toOption.getD "" }
      have hbatch : NodeWatch.batch? p.schema p.observee (.added o) =
          some ⟨n.name,
            [.node .add node, .node .updateLabels node, .node .recordProvision node]⟩ := by
        simp only [NodeWatch.batch?, hn]
        rfl
      refine ⟨node, _, _, on_of_batch_cons hp rfl hbatch, hnamed, fun f hf q hq => ?_⟩
      obtain rfl := List.mem_singleton.1 hf
      obtain rfl : q = .time := hq
      rfl
    | updated old o =>
      obtain ⟨n, hn, hif⟩ := Option.bind_eq_some_iff.1 h
      obtain ⟨hall, hnamed⟩ := Option.ite_none_right_eq_some.1 hif
      rw [← NodeWatch.isSome_driverVersion] at hall
      obtain ⟨v, hv⟩ : ∃ v, NodeWatch.driverVersion n.labels = .ok v := by
        cases hd : NodeWatch.driverVersion n.labels with
        | error e => rw [hd] at hall; cases hall
        | ok v => exact ⟨v, rfl⟩
      have hbatch : NodeWatch.batch? p.schema p.observee (.updated old o) =
          some ⟨n.name, [.node .update { n with driverVersion := v },
            .node .updateLabels { n with driverVersion := v }]⟩ := by
        simp only [NodeWatch.batch?, hn, Option.map_some, NodeWatch.update, hv]
      refine ⟨_, [], _, on_of_batch_cons hp rfl hbatch, hnamed, fun f hf => ?_⟩
      exact absurd hf List.not_mem_nil
    | deleted o => cases h
    | failed message => cases h

theorem on_gains (hp : p.subscriptions = Handler.wired) (hi : i < p.workplace.backends)
    (r : Resource) (c : Callback) (scene : Scene) :
    Ledger.writes.Gains i (p.on r c) scene ((p.pool? r c).toList.flatMap p.poolWrites) := by
  cases hlabelled : p.labelled? r c with
  | none =>
    have hnone : p.pool? r c = none := by rw [pool?_eq, hlabelled]; rfl
    have hfans := on_fansOut hp ⟨r, c, scene.weather⟩
    rw [hnone]
    exact Ledger.writes.gains_of_only i scene hfans.isSingle (on_only_of_pool?_none hp hnone)
  | some x =>
    have hpool : p.pool? r c = some x.1 := by rw [pool?_eq, hlabelled]; rfl
    obtain ⟨node, rest, n, hon, hnamed, hrest⟩ := on_of_labelled hp hlabelled
    have hlabel := get?_of_named? hnamed
    rw [hpool, Option.toList_some, List.flatMap_singleton, hon]
    refine Ledger.Gains.afterStamps (fun c' _ => ?_) n
    have hrelay := Workplace.relay_updateLabels_gains hi c' hlabel hrest
    exact hrelay.before_nothing fun c'' _ _ _ => Ledger.writes.gains_done i _ c''

theorem writes_meetAll (hp : p.subscriptions = Handler.wired) (hi : i < p.workplace.backends)
    {w : World} {os : List Occasion} (h : p.Prospers w os) :
    (p.meetAll w os).writes i = w.writes i ++
      (os.filterMap fun o => p.pool? o.resource o.callback).flatMap p.poolWrites := by
  induction os generalizing w with
  | nil => exact (List.append_nil _).symm
  | cons o os ih =>
    have hfirst : (p.meet w o).writes i =
        w.writes i ++ (p.pool? o.resource o.callback).toList.flatMap p.poolWrites :=
      on_gains hp hi o.resource o.callback ⟨w, o.weather⟩ h.1
    rw [meetAll_cons, ih h.2, hfirst, List.append_assoc, ← List.flatMap_append]
    cases hpool : p.pool? o.resource o.callback <;> simp [hpool]

/-- Whatever becomes of a run, what a backend is told to write is for pools that callbacks name; and
if the run prospers, it is told to write for all of them. -/
theorem writes_of_run (hp : p.subscriptions = Handler.wired) (w : World) (os : List Occasion)
    (i : ℕ) :
    ∃ new, (p.meetAll w os).writes i = w.writes i ++ new ∧
      (∀ x ∈ new, ∃ pool, p.Names os pool ∧ x ∈ p.poolWrites pool) ∧
      (p.Prospers w os → i < p.workplace.backends → ∀ pool, p.Names os pool →
        ∀ x ∈ p.poolWrites pool, x ∈ new) := by
  obtain ⟨new, hnew, hasked⟩ := exists_asked hp Ledger.writes w os i
  refine ⟨new, hnew, fun x hx => ?_, fun hhealthy hi pool hnamed x hx => ?_⟩
  · obtain ⟨o, ho, f, hf, q, hq, hxq⟩ := hasked x hx
    obtain ⟨pool, hpool, hmem⟩ := mem_poolWrites_of_mayAsk hf hq hxq
    exact ⟨pool, ⟨o, ho, hpool⟩, hmem⟩
  · have hall := writes_meetAll hp hi hhealthy
    obtain rfl := List.append_cancel_left (hnew.symm.trans hall)
    obtain ⟨o, ho, hpool⟩ := hnamed
    exact List.mem_flatMap.2 ⟨pool, List.mem_filterMap.2 ⟨o, ho, hpool⟩, hx⟩

end Pipeline

/-- Of the keys that the monitor uses for itself a backend is told to set just those as strings
that observed nodes name as their pools: none that is not named, and if no backend fails, all that
are. -/
theorem own_keys_set_iff_named (s : Settings) (schema : Schema) (n : ℕ) (w : World)
    (os : List Occasion) (i : ℕ) :
    let p := s.pipeline n Handler.wired schema
    ∃ new, (p.meetAll w os).writes i = w.writes i ++ new ∧
      ∀ key ∈ s.ownKeys, (.string key ∈ new → p.Names os key) ∧
        (p.Prospers w os → i < n → p.Names os key → .string key ∈ new) := by
  intro p
  obtain ⟨new, hnew, hnamed, hall⟩ := Pipeline.writes_of_run (p := p) rfl w os i
  refine ⟨new, hnew, fun key _ => ⟨fun hkey => ?_, fun hhealthy hi hname => ?_⟩⟩
  · obtain ⟨pool, hpool, hmem⟩ := hnamed _ hkey
    obtain rfl : key = pool := by simpa [Pipeline.poolWrites] using hmem
    exact hpool
  · exact hall hhealthy hi key hname _ (by simp [Pipeline.poolWrites])

/-! A cluster whose nodes name their pools, under settings that pass validation. -/

namespace Sample

def mocked : Settings := { redis := { mock := true } }

def pooled (pool : String) : Object :=
  { metadata := { name := some "n1", labels := some (.ofList [("agentpool", pool)]) } }

def naming (pool : String) : List Occasion := [⟨.nodes, .added (pooled pool), calm 1000⟩]

/-- A server that answers the transaction that writes a pool, and then tells the time. -/
def server : World :=
  { clock := ⟨0, 0⟩
    backends :=
      [.redis
        { name := "primary"
          pending := [.array [.okay, .int 1], .array [.bulk "100", .bulk "1"]] }] }

end Sample

theorem own_keys_set_iff_named_sample :
    let p := Sample.mocked.pipeline 2 Handler.wired
    let os := Sample.naming "enqueue-session" ++ [⟨.nodes, .failed "gone", Sample.calm 2000⟩]
    p.Prospers Sample.world os ∧ p.Names os "enqueue-session" ∧
      ∃ new, (p.meetAll Sample.world os).writes 1 = Sample.world.writes 1 ++ new ∧
        .string "enqueue-session" ∈ new ∧ .string "delete-session" ∉ new := by
  intro p os
  have hhealthy : p.Prospers Sample.world os :=
    ⟨⟨by decide +kernel, by decide +kernel⟩, ⟨by decide +kernel, by decide +kernel⟩, trivial⟩
  have hnamed : p.Names os "enqueue-session" := ⟨_, List.mem_cons_self, by decide +kernel⟩
  have hother : ¬ p.Names os "delete-session" := by
    rintro ⟨o, ho, hpool⟩
    revert hpool
    revert o
    decide +kernel
  obtain ⟨new, hnew, hkeys⟩ := own_keys_set_iff_named Sample.mocked .v1 2 Sample.world os 1
  refine ⟨hhealthy, hnamed, new, hnew, ?_, fun hmem => hother ?_⟩
  · exact (hkeys "enqueue-session" (by decide)).2 hhealthy (by decide) hnamed
  · exact (hkeys "delete-session" (by decide)).1 hmem

/-- A node whose pool has the name of the stream for new sessions has the stream set as a string. -/
theorem queue_set_as_pool :
    let s : Settings := { redis := { backends := [{}] } }
    let p := s.pipeline 1 Handler.wired
    s.validate = .ok () ∧ s.enqueueStream ∈ s.ownKeys ∧
      p.Prospers Sample.server (Sample.naming s.enqueueStream) ∧
      (p.meetAll Sample.server (Sample.naming s.enqueueStream)).writes 0 =
        [.string s.enqueueStream, .members s.poolSetKey [s.enqueueStream]] :=
  ⟨rfl, by decide, ⟨⟨by decide +kernel, by decide +kernel⟩, trivial⟩, by decide +kernel⟩

/-- A callback about a node without a pool has nothing written, whatever becomes of it. The empty
key is written if a node names the empty pool, and only then: its label is there, so it is not
passed over. -/
theorem empty_key_written_iff_named (s : Settings) (schema : Schema) (n : ℕ) (i : ℕ) :
    let p := s.pipeline n Handler.wired schema
    (∀ w o, p.pool? o.resource o.callback = none → (p.meet w o).writes i = w.writes i) ∧
      ∀ w os, ∃ new, (p.meetAll w os).writes i = w.writes i ++ new ∧
        (∀ x ∈ new, "" ∈ x.keys → p.Names os "") ∧
        (p.Prospers w os → i < n → p.Names os "" →
          .string "" ∈ new ∧ .members s.poolSetKey [""] ∈ new) := by
  intro p
  refine ⟨fun w o hnone => Pipeline.writes_meet_of_pool?_none rfl w hnone i, fun w os => ?_⟩
  obtain ⟨new, hnew, hnamed, hall⟩ := Pipeline.writes_of_run (p := p) rfl w os i
  refine ⟨new, hnew, fun x hx hempty => ?_, fun hhealthy hi hname => ?_⟩
  · obtain ⟨pool, hpool, hmem⟩ := hnamed x hx
    have hkeys : x.keys = [pool] := by
      simp only [Pipeline.poolWrites, List.mem_cons, List.not_mem_nil, or_false] at hmem
      rcases hmem with rfl | rfl <;> rfl
    rw [hkeys, List.mem_singleton] at hempty
    exact hempty ▸ hpool
  · exact ⟨hall hhealthy hi "" hname _ (by simp [Pipeline.poolWrites]),
      hall hhealthy hi "" hname _ (by simp [Pipeline.poolWrites, p, Settings.pipeline,
        Settings.labelsCache])⟩

theorem empty_key_written_iff_named_sample :
    let p := Sample.mocked.pipeline 2 Handler.wired
    p.pool? .nodes (.added Sample.node) = none ∧
      (p.meet Sample.world ⟨.nodes, .added Sample.node, Sample.calm 1000⟩).writes 0 =
        Sample.world.writes 0 ∧
      p.Prospers Sample.world (Sample.naming "") ∧
      ∃ new, (p.meetAll Sample.world (Sample.naming "")).writes 1 = Sample.world.writes 1 ++ new ∧
        .string "" ∈ new := by
  intro p
  have hnone : p.pool? .nodes (.added Sample.node) = none := by decide +kernel
  have hhealthy : p.Prospers Sample.world (Sample.naming "") :=
    ⟨⟨by decide +kernel, by decide +kernel⟩, trivial⟩
  have hnamed : p.Names (Sample.naming "") "" := ⟨_, List.mem_cons_self, by decide +kernel⟩
  have hskipped := (empty_key_written_iff_named Sample.mocked .v1 2 0).1 Sample.world
    ⟨.nodes, .added Sample.node, Sample.calm 1000⟩ hnone
  obtain ⟨new, hnew, -, hall⟩ :=
    (empty_key_written_iff_named Sample.mocked .v1 2 1).2 Sample.world (Sample.naming "")
  exact ⟨hnone, hskipped, hhealthy, new, hnew, (hall hhealthy (by decide) hnamed).1⟩

/-- A node whose label names the empty pool is not passed over: the empty key is written. -/
theorem empty_pool_written :
    Sample.mocked.validate = .ok () ∧
      ((Sample.mocked.pipeline 2 Handler.wired).meetAll Sample.world (Sample.naming "")).writes 0 =
        [.string "", .members "gpu-agent-pools" [""]] :=
  ⟨rfl, by decide +kernel⟩

end SessionWatch
