import Mathlib.Data.List.Perm.Basic
import Mathlib.Data.List.Nodup
import SessionWatch.Cluster.Store

/-!
A listener that keeps a map of the objects from callbacks alone. Along every sequence of changes
the callbacks fit what the listener's map shows, and the map comes to be the store's own, in
whatever order a relist tells of what has vanished.
-/

namespace SessionWatch.Cluster

namespace Callback

def heard (m : Table Object) : Callback → Table Object
  | .added o => m.insert o.key o
  | .updated _ new => m.insert new.key new
  | .deleted o => m.erase o.key
  | .failed _ => m

/-- A callback about a change fits a map: what is added is not there, what is updated is there as
it was, and so is what is deleted, unless the change itself deletes an object that is not there. -/
def Fits (c : Change) (m : Table Object) : Callback → Prop
  | .added o => m.get? o.key = none
  | .updated old new => old.key = new.key ∧ m.get? new.key = some old
  | .deleted o => m.get? o.key = some o ∨
      m.get? o.key = none ∧ c = .deleted o ∧ heard m (.deleted o) = m
  | .failed _ => False

end Callback

/-- Callbacks heard in turn, each with the change that it is about and fitting the map of then. -/
inductive Replay : Table Object → List (Change × Callback) → Table Object → Prop
  | nil (m : Table Object) : Replay m [] m
  | cons {m m' : Table Object} {x : Change × Callback} {xs : List (Change × Callback)} :
      x.2.Fits x.1 m → Replay (x.2.heard m) xs m' → Replay m (x :: xs) m'

namespace Replay

variable {m m' m'' : Table Object} {xs ys : List (Change × Callback)}

theorem append (h : Replay m xs m') (h' : Replay m' ys m'') : Replay m (xs ++ ys) m'' := by
  induction h with
  | nil m => exact h'
  | cons hfits _ ih => exact .cons hfits (ih h')

theorem single {c : Change} {d : Callback} (h : d.Fits c m) : Replay m [(c, d)] (d.heard m) :=
  .cons h (.nil _)

theorem deletions (c : Change) {gone : List Object} (hnodup : (gone.map (·.key)).Nodup)
    (hheld : ∀ o ∈ gone, m.get? o.key = some o) :
    Replay m (gone.map fun o => (c, .deleted o)) (gone.foldl (fun m o => m.erase o.key) m) := by
  induction gone generalizing m with
  | nil => exact .nil m
  | cons o gone ih =>
    rw [List.map_cons, List.nodup_cons] at hnodup
    refine .cons (.inl (hheld o (by simp))) (ih hnodup.2 fun o' ho' => ?_)
    have hne : o.key ≠ o'.key := fun h => hnodup.1 (h ▸ List.mem_map_of_mem ho')
    simpa [Callback.heard, hne] using hheld o' (by simp [ho'])

end Replay

theorem get?_foldl_erase (gone : List Object) (m : Table Object) (k : String) :
    (gone.foldl (fun m o => m.erase o.key) m).get? k =
      if k ∈ gone.map (·.key) then none else m.get? k := by
  induction gone generalizing m with
  | nil => simp
  | cons o gone ih =>
    rw [List.foldl_cons, ih, Table.get?_erase]
    by_cases ho : o.key = k
    · simp [ho]
    · simp [ho, Ne.symm ho]

namespace Store

def Keyed (s : Store) : Prop := ∀ k o, s.objects.get? k = some o → o.key = k

theorem keyed_empty : Keyed {} := fun k o h => by simp at h

/-- The callbacks that may tell of a change: what a relist no longer has comes in any order. -/
inductive Tells (s : Store) : Change → List Callback → Prop
  | applied (o : Object) : Tells s (.applied o) (s.apply (.applied o)).2
  | deleted (o : Object) : Tells s (.deleted o) (s.apply (.deleted o)).2
  | relisted (os : List Object) {gone : List Object} : gone.Perm (s.vanished os) →
      Tells s (.relisted os) (gone.map .deleted ++ ((s.keepListed os).putAll os).2)

theorem tells_apply (s : Store) (c : Change) : s.Tells c (s.apply c).2 := by
  cases c with
  | applied o => exact .applied o
  | deleted o => exact .deleted o
  | relisted os => exact .relisted os (List.Perm.refl _)

variable {s t : Store} {c : Change}

theorem keyed_put (hs : s.Keyed) (o : Object) : (s.put o).1.Keyed := by
  intro k o' h
  rw [put, Table.get?_insert] at h
  split at h
  · next hk =>
    cases h
    exact hk
  · exact hs k o' h

theorem keyed_putAll (hs : s.Keyed) (os : List Object) : (s.putAll os).1.Keyed := by
  induction os generalizing s with
  | nil => exact hs
  | cons o os ih => exact ih (keyed_put hs o)

theorem keyed_keepListed (hs : s.Keyed) (os : List Object) : (s.keepListed os).Keyed := by
  intro k o h
  rw [keepListed, Table.get?_filter] at h
  exact hs k o (Option.eq_some_of_filter_eq_some h)

theorem keyed_apply (hs : s.Keyed) (c : Change) : (s.apply c).1.Keyed := by
  cases c with
  | applied o => exact keyed_put hs o
  | deleted o =>
    intro k o' h
    simp only [apply, drop, Table.get?_erase] at h
    split at h
    · cases h
    · exact hs k o' h
  | relisted os => exact keyed_putAll (keyed_keepListed hs os) os

theorem replay_put (hs : s.Keyed) (o : Object) :
    Replay s.objects [(c, (s.put o).2)] (s.put o).1.objects := by
  cases h : s.objects.get? o.key with
  | none =>
    have hfits : (Callback.added o).Fits c s.objects := h
    simpa only [put, h, Callback.heard] using Replay.single hfits
  | some old =>
    have hfits : (Callback.updated old o).Fits c s.objects := ⟨hs _ _ h, h⟩
    simpa only [put, h, Callback.heard] using Replay.single hfits

theorem replay_putAll (hs : s.Keyed) (os : List Object) :
    Replay s.objects ((s.putAll os).2.map (c, ·)) (s.putAll os).1.objects := by
  induction os generalizing s with
  | nil => exact .nil _
  | cons o os ih => exact (replay_put hs o).append (ih (keyed_put hs o))

theorem replay_drop (hs : s.Keyed) (o : Object) :
    Replay s.objects [(.deleted o, (s.drop o).2)] (s.drop o).1.objects := by
  cases h : s.objects.get? o.key with
  | none =>
    have hfits : (Callback.deleted o).Fits (.deleted o) s.objects := by
      refine .inr ⟨h, rfl, Table.ext fun k => ?_⟩
      by_cases hk : o.key = k
      · simp [Callback.heard, ← hk, h]
      · simp [Callback.heard, hk]
    simpa only [drop, h, Option.getD_none, Callback.heard] using Replay.single hfits
  | some old =>
    have hkey : old.key = o.key := hs _ _ h
    have hfits : (Callback.deleted old).Fits (.deleted o) s.objects := .inl (by rw [hkey, h])
    have hreplay := Replay.single hfits
    simp only [Callback.heard, hkey] at hreplay
    simpa only [drop, h, Option.getD_some] using hreplay

theorem mem_vanished {os : List Object} {o : Object} (hs : s.Keyed) (h : o ∈ s.vanished os) :
    s.objects.get? o.key = some o ∧ lists os o.key = false := by
  obtain ⟨⟨k, o'⟩, he, rfl⟩ := List.mem_map.1 h
  have hget := Table.get?_eq_some_iff.2 he
  rw [Table.get?_filter, Option.filter_eq_some_iff] at hget
  obtain rfl : o'.key = k := hs _ _ hget.1
  simpa using hget

theorem map_key_vanished (hs : s.Keyed) (os : List Object) :
    (s.vanished os).map (·.key) = (s.objects.filter fun k _ => !lists os k).keys := by
  rw [vanished, List.map_map]
  refine List.map_congr_left fun e he => ?_
  have hget : (s.objects.filter fun k _ => !lists os k).get? e.1 = some e.2 :=
    Table.get?_eq_some_iff.2 he
  rw [Table.get?_filter, Option.filter_eq_some_iff] at hget
  exact hs _ _ hget.1

theorem foldl_erase_vanished (hs : s.Keyed) {os gone : List Object}
    (hgone : gone.Perm (s.vanished os)) :
    gone.foldl (fun m o => m.erase o.key) s.objects = (s.keepListed os).objects := by
  refine Table.ext fun k => ?_
  have hmem : k ∈ gone.map (·.key) ↔ (s.objects.get? k).isSome ∧ lists os k = false := by
    rw [(hgone.map _).mem_iff, map_key_vanished hs, Table.mem_keys, Table.contains,
      Table.get?_filter]
    cases s.objects.get? k <;> simp
  rw [get?_foldl_erase, keepListed, Table.get?_filter]
  cases hk : s.objects.get? k with
  | none => simp
  | some o => cases hl : lists os k <;> simp [hmem, hk, hl, Option.filter]

theorem replay_vanished (hs : s.Keyed) {os gone : List Object}
    (hgone : gone.Perm (s.vanished os)) :
    Replay s.objects (gone.map fun o => (c, .deleted o)) (s.keepListed os).objects := by
  have hnodup : (gone.map (·.key)).Nodup := by
    rw [(hgone.map _).nodup_iff, map_key_vanished hs]
    exact Table.nodup_keys _
  rw [← foldl_erase_vanished hs hgone]
  exact Replay.deletions c hnodup fun o ho => (mem_vanished hs (hgone.mem_iff.1 ho)).1

/-- The callbacks of one change lead from the objects before it to those after it. -/
theorem replay_apply (hs : s.Keyed) {ds : List Callback} (h : s.Tells c ds) :
    Replay s.objects (ds.map (c, ·)) (s.apply c).1.objects := by
  cases h with
  | applied o => exact replay_put hs o
  | deleted o => exact replay_drop hs o
  | relisted os hgone =>
    rw [List.map_append, List.map_map]
    exact (replay_vanished hs hgone).append (replay_putAll (keyed_keepListed hs os) os)

inductive History : Store → List (Change × List Callback) → Store → Prop
  | nil (s : Store) : History s [] s
  | cons {s t : Store} {c : Change} {ds : List Callback} {xs : List (Change × List Callback)} :
      s.Tells c ds → History (s.apply c).1 xs t → History s ((c, ds) :: xs) t

def callbacks (xs : List (Change × List Callback)) : List (Change × Callback) :=
  xs.flatMap fun x => x.2.map (x.1, ·)

theorem exists_history (s : Store) (cs : List Change) :
    ∃ xs t, xs.map (·.1) = cs ∧ History s xs t := by
  induction cs generalizing s with
  | nil => exact ⟨[], s, rfl, .nil s⟩
  | cons c cs ih =>
    obtain ⟨xs, t, hxs, hhistory⟩ := ih (s.apply c).1
    exact ⟨(c, (s.apply c).2) :: xs, t, by simp [hxs], .cons (s.tells_apply c) hhistory⟩

theorem History.replay {xs : List (Change × List Callback)} (h : History s xs t) (hs : s.Keyed) :
    Replay s.objects (callbacks xs) t.objects := by
  induction h with
  | nil s => exact .nil _
  | cons htells _ ih => exact (replay_apply hs htells).append (ih (keyed_apply hs _))

/-- A listener that starts with nothing hears callbacks that always fit what it holds, and comes to
hold what the store holds, whatever changes there are and in whatever order a relist tells of what
has vanished. -/
theorem replay_reconstructs (cs : List Change) :
    (∃ xs t, xs.map (·.1) = cs ∧ History {} xs t) ∧
      ∀ xs t, xs.map (·.1) = cs → History {} xs t → Replay ∅ (callbacks xs) t.objects :=
  ⟨exists_history {} cs, fun _ _ _ hhistory => hhistory.replay keyed_empty⟩

end Store

namespace Sample

def versioned (name version : String) : Object :=
  { metadata := { name := some name, version := some version } }

/-- Two objects come, one of them changes, a third that never was is deleted; then a relist has
neither of the two but another object twice, and tells of the two against the order of their
keys. -/
def telling : List (Change × List Callback) :=
  let a₁ := versioned "a" "1"
  let a₂ := versioned "a" "2"
  let b := versioned "b" "1"
  let c₁ := versioned "c" "1"
  let c₂ := versioned "c" "2"
  let z := versioned "z" "1"
  [(.applied a₁, [.added a₁]), (.applied b, [.added b]), (.applied a₂, [.updated a₁ a₂]),
    (.deleted z, [.deleted z]),
    (.relisted [c₁, c₂], [.deleted b, .deleted a₂, .added c₁, .updated c₁ c₂])]

def last : Store := ⟨Table.ofList [("/c", versioned "c" "2")]⟩

end Sample

theorem Store.replay_reconstructs_sample :
    History {} Sample.telling Sample.last ∧
      Replay ∅ (callbacks Sample.telling) Sample.last.objects := by
  have hhistory : History {} Sample.telling Sample.last :=
    .cons (.applied _) <| .cons (.applied _) <| .cons (.applied _) <| .cons (.deleted _) <|
      .cons (@Tells.relisted _ _ [Sample.versioned "b" "1", Sample.versioned "a" "2"]
        (List.Perm.swap _ _ [])) <| .nil _
  exact ⟨hhistory, (replay_reconstructs (Sample.telling.map (·.1))).2 _ _ rfl hhistory⟩

end SessionWatch.Cluster
