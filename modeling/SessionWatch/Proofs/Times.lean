import SessionWatch.Proofs.Course

/-!
The times remembered along a run. The time of a node is the one recorded last for it; the time of
a session is set where its pod is scheduled, forgotten where it is deleted, and untouched by all
else.
-/

namespace SessionWatch

open Session

namespace Session

def Call.provisioned? (n : String) : Call → Option Int64
  | .setNode m t => if m = n then some t else none
  | _ => none

def Call.scheduled? (s : String) : Call → Option Int64
  | .setPod m t => if m = s then some t else none
  | _ => none

theorem head_nodeKey (n : String) : (nodeKey n).toList.head? = some 'N' := by
  have hletters : "NodeProvisionTimeStamp.".toList = 'N' :: "odeProvisionTimeStamp.".toList := by
    decide
  show ("NodeProvisionTimeStamp." ++ n).toList.head? = some 'N'
  rw [String.toList_append, hletters, List.cons_append, List.head?_cons]

theorem head_podKey (s : String) : (podKey s).toList.head? = some 'P' := by
  have hletters : "PodScheduleTimeStamp.".toList = 'P' :: "odScheduleTimeStamp.".toList := by
    decide
  show ("PodScheduleTimeStamp." ++ s).toList.head? = some 'P'
  rw [String.toList_append, hletters, List.cons_append, List.head?_cons]

theorem nodeKey_ne_podKey (n s : String) : nodeKey n ≠ podKey s := by
  intro h
  have hhead := head_nodeKey n
  rw [h, head_podKey] at hhead
  simp at hhead

@[simp] theorem nodeKey_inj {n m : String} : nodeKey n = nodeKey m ↔ n = m :=
  String.append_right_inj _

@[simp] theorem podKey_inj {s t : String} : podKey s = podKey t ↔ s = t :=
  String.append_right_inj _

end Session

/-- The calls that are noted in one world and not yet in another before it. -/
def World.callsUntil (w v : World) : List Call :=
  (v.notes.drop w.notes.length).filterMap fun n => match n with
    | .called c => some c
    | _ => none

theorem World.callsUntil_of_notes {w v : World} (calls : List Call)
    (h : v.notes = w.notes ++ calls.map .called) : w.callsUntil v = calls := by
  simp [callsUntil, h, List.filterMap_map]

theorem World.callsUntil_of_eq {w v : World} (h : v.notes = w.notes) : w.callsUntil v = [] :=
  callsUntil_of_notes [] (h.trans (List.append_nil _).symm)

theorem World.callsUntil_of_append {w v : World} {c : Call}
    (h : v.notes = w.notes ++ [.called c]) : w.callsUntil v = [c] :=
  callsUntil_of_notes [c] h

namespace Fact

/-- The time that the handling of a fact with these calls records for a node. -/
def provisioned? (n : String) (calls : List Call) : Fact → Option Int64
  | .node .recordProvision _ => calls.findSome? (·.provisioned? n)
  | _ => none

def scheduled? (s : String) (calls : List Call) : Fact → Option Int64
  | .pod .recordSchedule _ => calls.findSome? (·.scheduled? s)
  | _ => none

theorem provisioned?_of_isIdle {fact : Fact} (h : fact.isIdle = true) (n : String)
    (calls : List Call) : fact.provisioned? n calls = none := by
  cases fact with
  | node change node =>
    cases change with
    | recordProvision => cases h
    | _ => rfl
  | _ => rfl

theorem scheduled?_of_isIdle {fact : Fact} (h : fact.isIdle = true) (s : String)
    (calls : List Call) : fact.scheduled? s calls = none := by
  cases fact with
  | pod change pod =>
    cases change with
    | recordSchedule => cases h
    | _ => rfl
  | _ => rfl

end Fact

namespace Effect

variable {streams : Streams} {w v : World} {fact : Fact} {x : Option (Result Unit)}

theorem node_time (h : Effect streams w v fact x) (n : String) :
    v.cache.get? (nodeKey n) =
      (fact.provisioned? n (w.callsUntil v)).or (w.cache.get? (nodeKey n)) := by
  cases h with
  | idle hidle hq =>
    have hnone := Fact.provisioned?_of_isIdle hidle n (w.callsUntil v)
    rw [hnone, hq.cache, Option.none_or]
  | provisioned t hcache hnotes _ =>
    rw [hcache, World.callsUntil_of_append hnotes, Table.get?_insert]
    simp only [Fact.provisioned?, Call.provisioned?, List.findSome?_cons, List.findSome?_nil,
      nodeKey_inj]
    split <;> rfl
  | unprovisioned hq =>
    rw [hq.cache, World.callsUntil_of_eq hq.notes]
    rfl
  | labelled hq => rw [hq.cache]; rfl
  | scheduled t hcache _ _ =>
    rw [hcache, Table.get?_insert, if_neg (nodeKey_ne_podKey n _).symm]
    rfl
  | unscheduled _ hq => rw [hq.cache]; rfl
  | deleted hcache _ =>
    rw [hcache, Table.get?_erase, if_neg (nodeKey_ne_podKey n _).symm]
    rfl
  | undeleted _ hcache _ => rw [hcache]; rfl
  | enqueued _ _ _ _ hcache _ => rw [hcache]; rfl
  | unknown _ _ hcache _ => rw [hcache]; rfl

theorem node_kept {n : String} (h : Effect streams w v fact x)
    (hno : ∀ node, fact = .node .recordProvision node → node.name ≠ n) :
    v.cache.get? (nodeKey n) = w.cache.get? (nodeKey n) := by
  have hnone : fact.provisioned? n (w.callsUntil v) = none := by
    cases h with
    | idle hidle _ => exact Fact.provisioned?_of_isIdle hidle n _
    | @provisioned node _ t _ hnotes _ =>
      have hne : node.name ≠ n := hno node rfl
      simp [World.callsUntil_of_append hnotes, Fact.provisioned?, Call.provisioned?, hne]
    | unprovisioned hq => simp [World.callsUntil_of_eq hq.notes, Fact.provisioned?]
    | _ => rfl
  rw [h.node_time n, hnone, Option.none_or]

/-- The time of a session changes where a time is recorded for it or its deletion succeeds. -/
theorem session_cases (h : Effect streams w v fact x) (s : String) :
    fact.scheduled? s (w.callsUntil v) = none ∧
        v.cache.get? (podKey s) = w.cache.get? (podKey s) ∨
      (∃ pod t, fact = .pod .recordSchedule pod ∧ pod.sessionId = s ∧ x = some (.ok ()) ∧
        fact.scheduled? s (w.callsUntil v) = some t ∧ v.cache.get? (podKey s) = some t) ∨
      ∃ pod, fact = .pod .delete pod ∧ pod.sessionId = s ∧ x = some (.ok ()) ∧
        v.cache.get? (podKey s) = none := by
  cases h with
  | idle hidle hq => exact .inl ⟨Fact.scheduled?_of_isIdle hidle s _, by rw [hq.cache]⟩
  | labelled hq => exact .inl ⟨rfl, by rw [hq.cache]⟩
  | provisioned t hcache _ _ =>
    exact .inl ⟨rfl, by rw [hcache, Table.get?_insert, if_neg (nodeKey_ne_podKey _ s)]⟩
  | unprovisioned hq => exact .inl ⟨rfl, by rw [hq.cache]⟩
  | @scheduled pod t hcache hnotes _ =>
    have hcalls := World.callsUntil_of_append hnotes
    by_cases hs : pod.sessionId = s
    · refine .inr (.inl ⟨pod, t, rfl, hs, rfl, ?_, ?_⟩)
      · simp [Fact.scheduled?, Call.scheduled?, hcalls, hs]
      · rw [hcache, Table.get?_insert, hs, if_pos rfl]
    · refine .inl ⟨?_, ?_⟩
      · simp [Fact.scheduled?, Call.scheduled?, hcalls, hs]
      · rw [hcache, Table.get?_insert, if_neg (by simpa using hs)]
  | unscheduled _ hq =>
    refine .inl ⟨?_, by rw [hq.cache]⟩
    rw [World.callsUntil_of_eq hq.notes]
    rfl
  | @deleted pod hcache _ =>
    by_cases hs : pod.sessionId = s
    · exact .inr (.inr ⟨pod, rfl, hs, rfl, by rw [hcache, Table.get?_erase, hs, if_pos rfl]⟩)
    · exact .inl ⟨rfl, by rw [hcache, Table.get?_erase, if_neg (by simpa using hs)]⟩
  | undeleted _ hcache _ => exact .inl ⟨rfl, by rw [hcache]⟩
  | enqueued _ _ _ _ hcache _ => exact .inl ⟨rfl, by rw [hcache]⟩
  | unknown _ _ hcache _ => exact .inl ⟨rfl, by rw [hcache]⟩

end Effect

theorem Course.node_kept {p : Pipeline} {w v : World} {hs : List Handling} {n : String}
    (hp : p.subscriptions = Handler.wired) (hc : Course p w hs v)
    (hno : ∀ h ∈ hs, ∀ node, h.event.fact = .node .recordProvision node → node.name ≠ n) :
    v.cache.get? (nodeKey n) = w.cache.get? (nodeKey n) := by
  induction hc with
  | quiet hq => rw [hq.cache]
  | @handled w v h hs hq hg _ ih =>
    have hafter := (hg.effect hp).node_kept (hno h (by simp))
    rw [ih fun g hg => hno g (by simp [hg]), hafter, hq.cache]

namespace Handling

def provisioned? (n : String) (h : Handling) : Option Int64 :=
  h.event.fact.provisioned? n (h.before.callsUntil h.after)

def scheduled? (s : String) (h : Handling) : Option Int64 :=
  h.event.fact.scheduled? s (h.before.callsUntil h.after)

end Handling

/-- The time recorded last for the provisioning of a node. -/
def lastProvision (hs : List Handling) (n : String) : Option Int64 :=
  (hs.filterMap (·.provisioned? n)).getLast?

def lastSchedule (hs : List Handling) (s : String) : Option Int64 :=
  (hs.filterMap (·.scheduled? s)).getLast?

theorem getLast?_filterMap_concat {α β : Type} (f : α → Option β) (as : List α) (a : α) :
    ((as ++ [a]).filterMap f).getLast? = (f a).or (as.filterMap f).getLast? := by
  cases ha : f a with
  | none => simp [ha]
  | some b => simp [ha]

theorem lastProvision_concat (hs : List Handling) (h : Handling) (n : String) :
    lastProvision (hs ++ [h]) n = (h.provisioned? n).or (lastProvision hs n) :=
  getLast?_filterMap_concat _ hs h

theorem lastSchedule_concat (hs : List Handling) (h : Handling) (s : String) :
    lastSchedule (hs ++ [h]) s = (h.scheduled? s).or (lastSchedule hs s) :=
  getLast?_filterMap_concat _ hs h

/-- The times remembered are the last that were recorded; those of sessions may be forgotten. -/
structure World.Remembers (w : World) (past : List Handling) : Prop where
  node : ∀ n, w.cache.get? (nodeKey n) = lastProvision past n
  session : ∀ s t, w.cache.get? (podKey s) = some t → lastSchedule past s = some t

namespace World.Remembers

variable {p : Pipeline} {w v : World} {past hs : List Handling}

theorem of_cache_eq (hm : w.Remembers past) (hc : v.cache = w.cache) : v.Remembers past := by
  refine ⟨fun n => ?_, fun s t ht => ?_⟩
  · rw [hc]
    exact hm.node n
  · rw [hc] at ht
    exact hm.session s t ht

theorem of_handling {h : Handling} (hp : p.subscriptions = Handler.wired) (hg : h.Genuine p)
    (hm : h.before.Remembers past) : h.after.Remembers (past ++ [h]) := by
  have heffect := hg.effect hp
  refine ⟨fun n => ?_, fun s t ht => ?_⟩
  · rw [heffect.node_time n, hm.node n, lastProvision_concat, Handling.provisioned?]
  · rw [lastSchedule_concat, Handling.scheduled?]
    rcases heffect.session_cases s with ⟨hnone, hkept⟩ | ⟨pod, t', -, -, -, hsome, hset⟩ |
      ⟨pod, -, -, -, hforgotten⟩
    · rw [hkept] at ht
      rw [hnone, Option.none_or]
      exact hm.session s t ht
    · rw [hset] at ht
      rw [hsome, ht, Option.some_or]
    · simp [hforgotten] at ht

/-- Along every course the times remembered stay the last recorded. -/
theorem of_course (hp : p.subscriptions = Handler.wired) (hc : Course p w hs v)
    (hm : w.Remembers past) : v.Remembers (past ++ hs) :=
  hc.invariant (I := fun past w => w.Remembers past)
    (fun _ _ _ hq hm => hm.of_cache_eq hq.cache) (fun _ _ hg hm => of_handling hp hg hm) past hm

end World.Remembers

end SessionWatch
