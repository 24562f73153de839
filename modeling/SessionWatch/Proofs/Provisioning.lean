import SessionWatch.Application
import SessionWatch.Proofs.Deeds
import SessionWatch.Proofs.Facts
import SessionWatch.Proofs.Relay
import SessionWatch.Proofs.Times

/-!
When the time of a node is known. It is recorded where an observed node is added, and nowhere else:
a node that failed to be recorded then is not recorded by its updates, however well they go.
-/

namespace SessionWatch

open Session Cluster

/-- The sessions can get the time of a node. -/
def World.Knows (w : World) (n : String) : Prop := ∃ t, ((getNode n).run w).2 = some (.ok t)

theorem World.knows_iff {w : World} {n : String} :
    w.Knows n ↔ (w.cache.get? (nodeKey n)).isSome = true := by
  have hrun : ((getNode n).run w).2 = some ((w.cache.get? (nodeKey n)).elim
      (.error (.of (.session (.keyNotFound (nodeKey n))))) .ok) := by
    show ((Plan.consult (nodeKey n)).bind _ |>.run w).2 = _
    rw [Plan.run_bind]
    cases h : w.cache.get? (nodeKey n) <;> simp [Plan.consult, Plan.once, Plan.run_step, World.perform, h]
  rw [Knows, hrun]
  cases w.cache.get? (nodeKey n) <;> simp

def Cluster.Callback.IsAbout (c : Callback) (n : String) : Prop :=
  ∃ o, c.object? = some o ∧ o.metadata.name = some n

theorem Cluster.NodeWatch.name_of_observed? {schema : Schema} {observee : Labels} {o : Object}
    {node : Node} (h : observed? schema observee o = some node) :
    o.metadata.name = some node.name := by
  obtain ⟨name, hqualifies, rfl⟩ := observed?_eq_some_iff.1 h
  exact hqualifies.named

/-! ### Callbacks that leave the time of a node as it is -/

theorem Pipeline.node_kept {p : Pipeline} (hp : p.subscriptions = Handler.wired) (w : World)
    {o : Occasion} {n : String}
    (hno : ∀ obj, o.resource = .nodes → o.callback = .added obj → obj.metadata.name ≠ some n) :
    (p.meet w o).cache.get? (nodeKey n) = w.cache.get? (nodeKey n) := by
  refine (p.course_handlings w o).node_kept hp fun h hh node hfact hname => ?_
  have hmem := p.facts_handlings hh
  rw [hfact] at hmem
  obtain ⟨hresource, b, hb, hnode⟩ := node_of_mem_facts hmem
  obtain ⟨obj, observed, hadded, hobserved, heq⟩ := NodeWatch.added_of_record_mem_batch hb hnode
  refine hno obj hresource hadded ?_
  rw [NodeWatch.name_of_observed? hobserved, ← heq, hname]

theorem Pipeline.node_kept_of_not_about {p : Pipeline} (hp : p.subscriptions = Handler.wired)
    (w : World) {os : List Occasion} {n : String}
    (hno : ∀ o ∈ os, o.resource = .nodes → ¬ o.callback.IsAbout n) :
    (p.meetAll w os).cache.get? (nodeKey n) = w.cache.get? (nodeKey n) := by
  induction os generalizing w with
  | nil => rfl
  | cons o os ih =>
    rw [meetAll_cons, ih _ fun o' ho' => hno o' (by simp [ho'])]
    refine node_kept hp w fun obj hresource hadded hname => ?_
    exact hno o (by simp) hresource ⟨obj, by rw [hadded]; rfl, hname⟩

/-! ### Additions that go well -/

theorem Plan.Thrives.afterStamps {α : Type} {p : Plan α} {n : ℕ} {c : Scene}
    (h : (p.afterStamps n).Thrives c) :
    ∃ c', p.Thrives c' ∧ (p.afterStamps n).play c = p.play c' := by
  induction n generalizing c with
  | zero => exact ⟨c, h, rfl⟩
  | succ n ih =>
    obtain ⟨c₁, s, hs, hrest⟩ := Plan.Thrives.step h
    obtain ⟨c', hp, hplay⟩ := ih hrest
    refine ⟨c', hp, ?_⟩
    show (Plan.step .stamp fun _ => p.afterStamps n).play c = _
    rw [Plan.play_step, hs]
    exact hplay

namespace Workplace

variable {w : Workplace} {node : Node} {c : Scene}

theorem update_play_of_thrives (hk : 0 < w.backends)
    (h : (w.labelsCache.update w.backends node).Thrives c) :
    ∃ c', (w.labelsCache.update w.backends node).play c = (c', some (.ok ())) := by
  unfold LabelsCache.update at h ⊢
  split at h
  · exact ⟨c, rfl⟩
  · obtain ⟨hfan, -⟩ := Plan.Thrives.bind h
    obtain ⟨c', a, hplay⟩ := Storage.fanOut_play_of_thrives hk hfan
    exact ⟨c', Plan.play_bind_of_some hplay _⟩

theorem recordProvision_play_of_thrives (hk : 0 < w.backends)
    (h : (w.recordProvision node).Thrives c) :
    ∃ c', (w.recordProvision node).play c = (c', some (.ok ())) ∧
      (c'.world.cache.get? (nodeKey node.name)).isSome = true := by
  obtain ⟨hfan, -⟩ := Plan.Thrives.bind h
  obtain ⟨c₁, t, hplay⟩ := Storage.fanOut_play_of_thrives hk hfan
  refine ⟨_, Plan.play_bind_of_some hplay _, ?_⟩
  show ((c₁.world.cache.insert (nodeKey node.name) t).get? (nodeKey node.name)).isSome = true
  simp

theorem relay_cons_play {f : Fact} {fs : List Fact} {c c' : Scene}
    (h : (w.attend f).play c = (c', some (.ok ()))) :
    (w.relay (f :: fs)).play c = (w.relay fs).play c' :=
  Plan.play_bind_of_some h _

/-- All facts of an addition are attended to, and the last of them has the node recorded. -/
theorem relay_addition_of_thrives (hk : 0 < w.backends)
    (h : (w.relay (NodeWatch.addition node).facts).Thrives c) :
    ((w.relay (NodeWatch.addition node).facts).play c).1.world.Knows node.name := by
  let n : Node := { node with driverVersion := (NodeWatch.driverVersion node.labels).toOption.getD "" }
  have hadded : (w.attend (.node .add n)).play c = (c, some (.ok ())) := rfl
  obtain ⟨-, c₀, x, hx, hrest⟩ := Plan.Thrives.bind h
  rw [hadded] at hx
  obtain ⟨rfl, rfl⟩ : c = c₀ ∧ .ok () = x := by simpa using hx
  obtain ⟨hupdate, c₁, y, hy, hlast⟩ := Plan.Thrives.bind hrest
  obtain ⟨c', hlabels⟩ :
      ∃ c', (w.attend (.node .updateLabels n)).play c = (c', some (.ok ())) :=
    update_play_of_thrives hk hupdate
  have hy' : (c', some (.ok ())) = (c₁, some y) := hlabels.symm.trans hy
  obtain ⟨rfl, rfl⟩ : c' = c₁ ∧ .ok () = y := by simpa using hy'
  obtain ⟨hrecord, -⟩ := Plan.Thrives.bind hlast
  obtain ⟨c₂, hrecorded, hknown⟩ :
      ∃ c₂, (w.attend (.node .recordProvision n)).play c' = (c₂, some (.ok ())) ∧
        (c₂.world.cache.get? (nodeKey n.name)).isSome = true :=
    recordProvision_play_of_thrives hk hrecord
  have hplay : (w.relay (NodeWatch.addition node).facts).play c = (c₂, some (.ok ())) :=
    (relay_cons_play hadded).trans ((relay_cons_play hlabels).trans (relay_cons_play hrecorded))
  rw [hplay, World.knows_iff]
  exact hknown

end Workplace

theorem Pipeline.knows_of_added {p : Pipeline} (hp : p.subscriptions = Handler.wired)
    (hk : 0 < p.workplace.backends) {w : World} {ω : Weather} {obj : Object} {node : Node}
    (hobserved : NodeWatch.observed? p.schema p.observee obj = some node)
    (h : (p.on .nodes (.added obj)).Thrives ⟨w, ω⟩) :
    (p.meet w ⟨.nodes, .added obj, ω⟩).Knows node.name := by
  have hpublications : p.publications .nodes (.added obj) = [.batch (NodeWatch.addition node)] := by
    simp [publications, NodeWatch.batch?, hobserved]
  have hon : p.on .nodes (.added obj) =
      ((p.workplace.relay (NodeWatch.addition node).facts).bind fun _ => .done ()).afterStamps 3 := by
    rw [on_eq_relayEach hp, hpublications]
    rfl
  rw [hon] at h
  obtain ⟨c', hthrives, hplay⟩ := h.afterStamps
  have hknown := Workplace.relay_addition_of_thrives hk (Plan.Thrives.bind hthrives).1
  rw [meet, hon, hplay, Plan.play_bind_done]
  exact hknown

/-- After the last callback about a node, if it was an addition or an update of an observed node and
no backend failed in it, the time of the node is known just if it was an addition or the time had
been known before. -/
theorem node_known_iff (s : Settings) (schema : Schema) {k : ℕ} (hk : 0 < k) {w : World}
    {before after : List Occasion} {o : Occasion} {obj : Object} {node : Node}
    (hnodes : o.resource = .nodes)
    (hcallback : o.callback = .added obj ∨ ∃ old, o.callback = .updated old obj)
    (hobserved : NodeWatch.observed? schema s.observeeLabels obj = some node)
    (hhealthy : ((s.pipeline k Handler.wired schema).on .nodes o.callback).Thrives
      ⟨(s.pipeline k Handler.wired schema).meetAll w before, o.weather⟩)
    (hlast : ∀ o' ∈ after, o'.resource = .nodes → ¬ o'.callback.IsAbout node.name) :
    ((s.pipeline k Handler.wired schema).meetAll w (before ++ o :: after)).Knows node.name ↔
      o.callback = .added obj ∨
        ((s.pipeline k Handler.wired schema).meetAll w before).Knows node.name := by
  let p := s.pipeline k Handler.wired schema
  let v := p.meetAll w before
  have hafter : (p.meetAll w (before ++ o :: after)).Knows node.name ↔
      (p.meet v o).Knows node.name := by
    rw [Pipeline.meetAll_append, Pipeline.meetAll_cons, World.knows_iff, World.knows_iff,
      Pipeline.node_kept_of_not_about rfl _ hlast]
  obtain ⟨resource, callback, weather⟩ := o
  obtain rfl : resource = .nodes := hnodes
  rw [hafter]
  rcases hcallback with hadded | ⟨old, hupdated⟩
  · obtain rfl : callback = .added obj := hadded
    have hknown : (p.meet v ⟨.nodes, .added obj, weather⟩).Knows node.name :=
      Pipeline.knows_of_added rfl hk hobserved hhealthy
    exact iff_of_true hknown (.inl rfl)
  · obtain rfl : callback = .updated old obj := hupdated
    have hkept : (p.meet v ⟨.nodes, .updated old obj, weather⟩).cache.get? (nodeKey node.name) =
        v.cache.get? (nodeKey node.name) :=
      Pipeline.node_kept rfl v fun obj' _ hadded => by cases hadded
    rw [World.knows_iff, hkept, ← World.knows_iff]
    simp [v, p]

/-! A node is first seen as an object that cannot be read. -/

namespace Sample

def observing : Settings := { observeeLabels := .ofList [("gpu", "true")] }

def gpuLabels : Labels := .ofList
  [("gpu", "true"), ("agentpool", "viz"), (NodeWatch.majorLabel, "535"),
    (NodeWatch.minorLabel, "104"), (NodeWatch.revisionLabel, "05")]

def gpuNode : Object := { metadata := { name := some "n1", labels := some gpuLabels } }

def unreadable : Object :=
  { gpuNode with content := [("spec", .obj [("unschedulable", .str "no")])] }

end Sample

theorem node_known_iff_sample :
    0 < 2 ∧ NodeWatch.observed? .v1 Sample.observing.observeeLabels Sample.gpuNode =
        some ⟨"n1", "", Sample.gpuLabels⟩ ∧
      ((Sample.observing.pipeline 2 Handler.wired).meetAll Sample.world
        ([⟨.nodes, .failed "gone", Sample.calm 1000⟩] ++
          ⟨.nodes, .added Sample.gpuNode, Sample.calm 2000⟩ ::
            [⟨.pods, .updated Sample.pending Sample.ready, Sample.calm 3000⟩])).Knows "n1" := by
  have hobserved : NodeWatch.observed? .v1 Sample.observing.observeeLabels Sample.gpuNode =
      some ⟨"n1", "", Sample.gpuLabels⟩ := by decide +kernel
  have hhealthy : ((Sample.observing.pipeline 2 Handler.wired).on .nodes
      (.added Sample.gpuNode)).Thrives
        ⟨(Sample.observing.pipeline 2 Handler.wired).meetAll Sample.world
          [⟨.nodes, .failed "gone", Sample.calm 1000⟩], Sample.calm 2000⟩ :=
    ⟨by decide +kernel, by decide +kernel⟩
  have hiff := @node_known_iff Sample.observing .v1 2 (by decide) Sample.world
    [⟨.nodes, .failed "gone", Sample.calm 1000⟩]
    [⟨.pods, .updated Sample.pending Sample.ready, Sample.calm 3000⟩]
    ⟨.nodes, .added Sample.gpuNode, Sample.calm 2000⟩ Sample.gpuNode ⟨"n1", "", Sample.gpuLabels⟩
    rfl (.inl rfl) hobserved hhealthy (by simp)
  exact ⟨by decide, hobserved, hiff.2 (.inl rfl)⟩

/-- The next change of the node is told as an update; it is read, no backend fails, and still the
time of the node is not known. -/
theorem update_is_no_retry :
    (({} : Store).receiveAll
        [.change (.applied Sample.unreadable), .change (.applied Sample.gpuNode)]).2 =
      [.added Sample.unreadable, .updated Sample.unreadable Sample.gpuNode] ∧
    NodeWatch.observed? .v1 Sample.observing.observeeLabels Sample.gpuNode =
      some ⟨"n1", "", Sample.gpuLabels⟩ ∧
    ((Sample.observing.pipeline 2 Handler.wired).on .nodes
        (.updated Sample.unreadable Sample.gpuNode)).Thrives
      ⟨(Sample.observing.pipeline 2 Handler.wired).meetAll Sample.world
        [⟨.nodes, .added Sample.unreadable, Sample.calm 1000⟩], Sample.calm 2000⟩ ∧
    ¬ ((Sample.observing.pipeline 2 Handler.wired).meetAll Sample.world
        [⟨.nodes, .added Sample.unreadable, Sample.calm 1000⟩,
          ⟨.nodes, .updated Sample.unreadable Sample.gpuNode, Sample.calm 2000⟩]).Knows "n1" := by
  refine ⟨rfl, by decide +kernel, ⟨by decide +kernel, by decide +kernel⟩, ?_⟩
  rw [World.knows_iff]
  decide +kernel

end SessionWatch
