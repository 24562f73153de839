import SessionWatch.Proofs.Requests

/-!
What the sessions remember. The times of nodes and of sessions share one cache, under keys with
different fronts; to those who ask they are two maps of their own, of which only that of sessions
forgets.
-/

namespace SessionWatch

open Session Storage

namespace Session

abbrev Call.Answer : Call → Type
  | .setNode .. => Unit
  | .setPod .. => Unit
  | .getNode _ => Result Int64
  | .getPod _ => Result Int64
  | .ready _ => Result String
  | .deletable _ => Result String

def Call.serve (n : ℕ) (streams : Streams) : (c : Call) → Plan c.Answer
  | .setNode node t => Session.setNode node t
  | .setPod session t => Session.setPod session t
  | .getNode node => Session.getNode node
  | .getPod session => Session.getPod session
  | .ready r => setReady n streams r
  | .deletable d => setDeletable n streams d

structure Turn where
  call : Call
  answer : call.Answer

def serveAll (n : ℕ) (streams : Streams) : List Call → Plan (List Turn)
  | [] => pure []
  | c :: cs => do
    let a ← c.serve n streams
    let turns ← serveAll n streams cs
    pure (⟨c, a⟩ :: turns)

end Session

/-! ### Two maps -/

/-- The times of nodes by their names, and those of sessions by their ids. -/
structure Recollection where
  nodes : Table Int64 := ∅
  sessions : Table Int64 := ∅

namespace Recollection

/-- What is remembered once a call is answered. A session is forgotten when it is written off for
deletion, a node never. -/
def after (m : Recollection) : Turn → Recollection
  | ⟨.setNode node t, _⟩ => { m with nodes := m.nodes.insert node t }
  | ⟨.setPod session t, _⟩ => { m with sessions := m.sessions.insert session t }
  | ⟨.deletable d, .ok _⟩ => { m with sessions := m.sessions.erase d.sessionId }
  | _ => m

def ofTurns (turns : List Turn) : Recollection := turns.foldl after {}

/-- The time under a name, or a report of the key that is missing. -/
def told (times : Table Int64) (name key : String) : Result Int64 :=
  match times.get? name with
  | some t => .ok t
  | none => .error (.of (.session (.keyNotFound key)))

/-- A call that asks for a time is answered with the one remembered. -/
def Tells (m : Recollection) : Turn → Prop
  | ⟨.getNode node, a⟩ => a = told m.nodes node ("NodeProvisionTimeStamp." ++ node)
  | ⟨.getPod session, a⟩ => a = told m.sessions session ("PodScheduleTimeStamp." ++ session)
  | _ => True

/-- A cache that holds just what is remembered. -/
structure Describes (m : Recollection) (cache : Table Int64) : Prop where
  nodes : ∀ node, cache.get? (nodeKey node) = m.nodes.get? node
  sessions : ∀ session, cache.get? (podKey session) = m.sessions.get? session
  keys : ∀ key, cache.contains key = true →
    (∃ node, key = nodeKey node) ∨ ∃ session, key = podKey session

theorem describes_empty : Describes {} ∅ := ⟨fun _ => rfl, fun _ => rfl, nofun⟩

namespace Describes

variable {m : Recollection} {cache : Table Int64}

theorem insert_node (h : m.Describes cache) (node : String) (t : Int64) :
    Describes { m with nodes := m.nodes.insert node t } (cache.insert (nodeKey node) t) where
  nodes other := by simp [h.nodes]
  sessions session := by simp [nodeKey_ne_podKey, h.sessions]
  keys key hkey := by
    by_cases hk : nodeKey node = key
    · exact .inl ⟨node, hk.symm⟩
    · exact h.keys key (by simpa [Table.contains, hk] using hkey)

theorem insert_session (h : m.Describes cache) (session : String) (t : Int64) :
    Describes { m with sessions := m.sessions.insert session t }
      (cache.insert (podKey session) t) where
  nodes node := by simp [(nodeKey_ne_podKey node session).symm, h.nodes]
  sessions other := by simp [h.sessions]
  keys key hkey := by
    by_cases hk : podKey session = key
    · exact .inr ⟨session, hk.symm⟩
    · exact h.keys key (by simpa [Table.contains, hk] using hkey)

theorem erase_session (h : m.Describes cache) (session : String) :
    Describes { m with sessions := m.sessions.erase session } (cache.erase (podKey session)) where
  nodes node := by simp [(nodeKey_ne_podKey node session).symm, h.nodes]
  sessions other := by simp [h.sessions]
  keys key hkey := by
    by_cases hk : podKey session = key
    · exact .inr ⟨session, hk.symm⟩
    · exact h.keys key (by simpa [Table.contains, hk] using hkey)

theorem keys_perm (h : m.Describes cache) :
    cache.keys.Perm (m.nodes.keys.map nodeKey ++ m.sessions.keys.map podKey) := by
  have hnodes : (m.nodes.keys.map nodeKey).Nodup :=
    m.nodes.nodup_keys.map fun _ _ he => nodeKey_inj.1 he
  have hsessions : (m.sessions.keys.map podKey).Nodup :=
    m.sessions.nodup_keys.map fun _ _ he => podKey_inj.1 he
  have happart : (m.nodes.keys.map nodeKey).Disjoint (m.sessions.keys.map podKey) := by
    intro key hn hs
    obtain ⟨node, -, rfl⟩ := List.mem_map.1 hn
    obtain ⟨session, -, heq⟩ := List.mem_map.1 hs
    exact nodeKey_ne_podKey node session heq.symm
  refine (List.perm_ext_iff_of_nodup cache.nodup_keys (hnodes.append hsessions happart)).2 ?_
  intro key
  simp only [List.mem_append, List.mem_map, Table.mem_keys]
  constructor
  · intro hkey
    rcases h.keys key hkey with ⟨node, rfl⟩ | ⟨session, rfl⟩
    · exact .inl ⟨node, by rwa [Table.contains, ← h.nodes], rfl⟩
    · exact .inr ⟨session, by rwa [Table.contains, ← h.sessions], rfl⟩
  · rintro (⟨node, hnode, rfl⟩ | ⟨session, hsession, rfl⟩)
    · rwa [Table.contains, h.nodes]
    · rwa [Table.contains, h.sessions]

theorem size_eq (h : m.Describes cache) : cache.size = m.nodes.size + m.sessions.size := by
  have hlength := h.keys_perm.length_eq
  simpa [Table.keys, Table.size] using hlength

end Describes

end Recollection

/-! ### One call -/

namespace Session

theorem setReady_lasting (n : ℕ) (streams : Streams) (r : Ready) :
    (setReady n streams r).Only Request.Lasting := push_only n _ _ _ trivial fun _ => trivial

theorem setDeletable_lasting (n : ℕ) (streams : Streams) (d : Deletable) :
    (setDeletable n streams d).Only Request.Lasting := by
  refine (push_only n _ _ _ trivial fun _ => trivial).bind fun a => ?_
  cases a with
  | error r => trivial
  | ok id => exact (Plan.forget_only _).bind fun _ => trivial

/-- A call is answered as the two maps say, and leaves a cache that holds what they do then. -/
theorem Call.serve_play (n : ℕ) (streams : Streams) (call : Call) {m : Recollection} {c : Scene}
    (h : m.Describes c.world.cache) :
    ∃ c' a, (call.serve n streams).play c = (c', some a) ∧ m.Tells ⟨call, a⟩ ∧
      (m.after ⟨call, a⟩).Describes c'.world.cache := by
  obtain ⟨w, ω⟩ := c
  cases call with
  | setNode node t => exact ⟨_, (), Plan.play_once _ _, trivial, h.insert_node node t⟩
  | setPod session t => exact ⟨_, (), Plan.play_once _ _, trivial, h.insert_session session t⟩
  | getNode node =>
    obtain ⟨hquiet, hanswer⟩ := timeUnder_ensures (nodeKey node) w ω
    refine ⟨_, _, Prod.ext rfl hanswer, ?_, hquiet.cache ▸ h⟩
    rw [h.nodes]
    rfl
  | getPod session =>
    obtain ⟨hquiet, hanswer⟩ := timeUnder_ensures (podKey session) w ω
    refine ⟨_, _, Prod.ext rfl hanswer, ?_, hquiet.cache ▸ h⟩
    rw [h.sessions]
    rfl
  | ready r =>
    have hextends := push_ensures n streams.enqueue .enqueue r.encode w ω
    obtain ⟨a, ha⟩ := Option.isSome_iff_exists.1 ((setReady_lasting n streams r).ends ⟨w, ω⟩)
    exact ⟨_, a, Prod.ext rfl ha, trivial, hextends.cache ▸ h⟩
  | deletable d =>
    obtain ⟨-, hcases⟩ := setDeletable_ensures n streams d w ω
    obtain ⟨a, ha⟩ := Option.isSome_iff_exists.1 ((setDeletable_lasting n streams d).ends ⟨w, ω⟩)
    refine ⟨_, a, Prod.ext rfl ha, trivial, ?_⟩
    rcases hcases with ⟨⟨id, hid⟩, hforgets⟩ | ⟨hfails, hkeeps⟩
    · obtain rfl : a = .ok id := Option.some.inj (ha.symm.trans hid)
      exact hforgets ▸ h.erase_session d.sessionId
    · cases a with
      | ok id => exact absurd ha (hfails id)
      | error r => exact hkeeps ▸ h

/-! ### A sequence of calls -/

theorem serveAll_cons_play {n : ℕ} {streams : Streams} {call : Call} {calls : List Call}
    {a : call.Answer} {turns : List Turn} {c c₁ c₂ : Scene}
    (hfirst : (call.serve n streams).play c = (c₁, some a))
    (hrest : (serveAll n streams calls).play c₁ = (c₂, some turns)) :
    (serveAll n streams (call :: calls)).play c = (c₂, some (⟨call, a⟩ :: turns)) := by
  rw [serveAll, Plan.bind_eq, Plan.play_bind_of_some hfirst, Plan.bind_eq,
    Plan.play_bind_of_some hrest]
  rfl

theorem serveAll_play (n : ℕ) (streams : Streams) (calls : List Call) {m : Recollection}
    {c : Scene} (h : m.Describes c.world.cache) :
    ∃ c' turns, (serveAll n streams calls).play c = (c', some turns) ∧
      turns.map (·.call) = calls ∧
      (∀ before turn later, turns = before ++ turn :: later →
        (before.foldl Recollection.after m).Tells turn) ∧
      (turns.foldl Recollection.after m).Describes c'.world.cache := by
  induction calls generalizing m c with
  | nil => exact ⟨c, [], rfl, rfl, by simp, h⟩
  | cons call calls ih =>
    obtain ⟨c₁, a, hfirst, htells, hafter⟩ := call.serve_play n streams h
    obtain ⟨c₂, turns, hrest, hcalls, hall, hend⟩ := ih hafter
    refine ⟨c₂, ⟨call, a⟩ :: turns, serveAll_cons_play hfirst hrest, by rw [List.map_cons, hcalls],
      fun before turn later hturns => ?_, hend⟩
    cases before with
    | nil =>
      obtain ⟨rfl, -⟩ := List.cons.inj hturns
      exact htells
    | cons x before =>
      obtain ⟨rfl, htail⟩ := List.cons.inj hturns
      exact hall before turn later htail

end Session

/-- Over any backends in any state and weather, calls made of sessions that remember nothing yet are
all answered, each one that asks for a time as a map of nodes and a map of sessions answer it at
that point; and the cache has as many entries as the two maps have together. -/
theorem remembers_in_two_maps (n : ℕ) (streams : Streams) (calls : List Call) (w : World)
    (ω : Weather) :
    ∃ c turns, (serveAll n streams calls).play ⟨{ w with cache := ∅ }, ω⟩ = (c, some turns) ∧
      turns.map (·.call) = calls ∧
      (∀ before turn later, turns = before ++ turn :: later →
        (Recollection.ofTurns before).Tells turn) ∧
      c.world.cache.size =
        (Recollection.ofTurns turns).nodes.size + (Recollection.ofTurns turns).sessions.size := by
  obtain ⟨c, turns, hplay, hcalls, htells, hend⟩ := serveAll_play n streams calls
    (c := ⟨{ w with cache := ∅ }, ω⟩) Recollection.describes_empty
  exact ⟨c, turns, hplay, hcalls, htells, hend.size_eq⟩

end SessionWatch
