import SessionWatch.Proofs.Mirror

/-!
A relist as a whole. Whatever a store has been through, it tells of each object that is no longer
listed once, and then of the listed ones in their order; afterwards it holds the last listed object
of each key and nothing else, so that nothing is left of what it held before.
-/

namespace SessionWatch.Cluster

def lastUnder (os : List Object) (k : String) : Option Object :=
  (os.filter fun o => o.key = k).getLast?

@[simp] theorem lastUnder_nil (k : String) : lastUnder [] k = none := rfl

theorem lastUnder_cons (o : Object) (os : List Object) (k : String) :
    lastUnder (o :: os) k = (lastUnder os k).or (if o.key = k then some o else none) := by
  by_cases hk : o.key = k
  · simp only [lastUnder, List.filter_cons, hk, decide_true, if_true, List.getLast?_cons]
    cases (os.filter fun o => o.key = k).getLast? <;> rfl
  · simp only [lastUnder, List.filter_cons, hk, decide_false, if_false, Bool.false_eq_true,
      Option.or_none]

theorem isSome_lastUnder (os : List Object) (k : String) :
    (lastUnder os k).isSome = Store.lists os k := by
  induction os with
  | nil => rfl
  | cons o os ih =>
    have hcons : Store.lists (o :: os) k = (o.key == k || Store.lists os k) := rfl
    rw [lastUnder_cons, hcons, ← ih]
    by_cases hk : o.key = k <;> cases lastUnder os k <;> simp [hk]

/-- What is told of an object that is seen where another one was known, or none. -/
def Callback.seen (known : Option Object) (o : Object) : Callback :=
  match known with
  | none => .added o
  | some old => .updated old o

namespace Store

/-- These are the objects that are held and not listed, as they are held, each once. -/
structure Gone (s : Store) (os gone : List Object) : Prop where
  once : (gone.map (·.key)).Nodup
  keys : ∀ k, k ∈ gone.map (·.key) ↔
    (s.objects.get? k).isSome = true ∧ ∀ o ∈ os, o.key ≠ k
  held : ∀ o ∈ gone, s.objects.get? o.key = some o

/-- What is told of listed objects in their order: each was known as it was listed before, or else
as it was held. -/
def seenAll (s : Store) (os : List Object) : List Callback :=
  os.mapIdx fun i o =>
    .seen ((lastUnder (os.take i) o.key).or (s.objects.get? o.key)) o

/-- These callbacks reconcile a listener with a list: first deletions of what is gone, in some
order, and then what is told of the listed objects. -/
def Reconciles (s : Store) (os : List Object) (ds : List Callback) : Prop :=
  ∃ gone, s.Gone os gone ∧ ds = gone.map .deleted ++ s.seenAll os

variable {s : Store} {os gone : List Object}

/-! ### Objects that are gone -/

theorem lists_eq_false_iff {k : String} : lists os k = false ↔ ∀ o ∈ os, o.key ≠ k := by
  simp [lists]

theorem Gone.mem_iff (h : s.Gone os gone) (o : Object) :
    o ∈ gone ↔ s.objects.get? o.key = some o ∧ ∀ o' ∈ os, o'.key ≠ o.key := by
  constructor
  · intro ho
    exact ⟨h.held o ho, ((h.keys o.key).1 (List.mem_map_of_mem ho)).2⟩
  · rintro ⟨hheld, hunlisted⟩
    obtain ⟨o', ho', hkey⟩ := List.mem_map.1 ((h.keys o.key).2 ⟨by rw [hheld]; rfl, hunlisted⟩)
    have hheld' : s.objects.get? o.key = some o' := hkey ▸ h.held o' ho'
    have heq : o' = o := Option.some.inj (hheld'.symm.trans hheld)
    exact heq ▸ ho'

theorem gone_vanished (hs : s.Keyed) (os : List Object) : s.Gone os (s.vanished os) where
  once := by
    rw [map_key_vanished hs]
    exact Table.nodup_keys _
  keys k := by
    rw [map_key_vanished hs, Table.mem_keys, Table.contains, Table.get?_filter,
      ← lists_eq_false_iff]
    cases s.objects.get? k <;> simp
  held o ho := (mem_vanished hs ho).1

theorem perm_vanished_iff (hs : s.Keyed) : gone.Perm (s.vanished os) ↔ s.Gone os gone := by
  have hvanished := gone_vanished hs os
  constructor
  · intro hperm
    refine ⟨?_, fun k => ?_, fun o ho => hvanished.held o (hperm.mem_iff.1 ho)⟩
    · exact (hperm.map _).nodup_iff.2 hvanished.once
    · rw [(hperm.map _).mem_iff, hvanished.keys]
  · intro hgone
    refine (List.perm_ext_iff_of_nodup hgone.once.of_map hvanished.once.of_map).2 fun o => ?_
    rw [hgone.mem_iff, hvanished.mem_iff]

/-! ### Objects that are listed -/

theorem put_eq (s : Store) (o : Object) :
    s.put o = (⟨s.objects.insert o.key o⟩, .seen (s.objects.get? o.key) o) := by
  unfold put Callback.seen
  cases s.objects.get? o.key <;> rfl

theorem lastUnder_or_put (s : Store) (o : Object) (os : List Object) (k : String) :
    (lastUnder os k).or ((s.put o).1.objects.get? k) =
      (lastUnder (o :: os) k).or (s.objects.get? k) := by
  rw [put_eq, Table.get?_insert, lastUnder_cons, Option.or_assoc]
  by_cases hk : o.key = k <;> simp [hk]

theorem get?_putAll (s : Store) (os : List Object) (k : String) :
    (s.putAll os).1.objects.get? k = (lastUnder os k).or (s.objects.get? k) := by
  induction os generalizing s with
  | nil => rfl
  | cons o os ih => rw [putAll_cons, ih, lastUnder_or_put]

theorem snd_putAll (s : Store) (os : List Object) : (s.putAll os).2 = s.seenAll os := by
  induction os generalizing s with
  | nil => rfl
  | cons o os ih =>
    have hrest : (s.put o).1.seenAll os = os.mapIdx fun i o' =>
        .seen ((lastUnder (o :: os.take i) o'.key).or (s.objects.get? o'.key)) o' := by
      simp only [seenAll, lastUnder_or_put]
    have hfirst : (s.put o).2 = .seen (s.objects.get? o.key) o := congrArg Prod.snd (s.put_eq o)
    rw [putAll_cons, ih, hrest, hfirst]
    simp [seenAll, List.mapIdx_cons]

theorem seenAll_keepListed (s : Store) (os : List Object) :
    (s.keepListed os).seenAll os = s.seenAll os := by
  refine List.ext_getElem? fun i => ?_
  simp only [seenAll, List.getElem?_mapIdx]
  cases ho : os[i]? with
  | none => rfl
  | some o =>
    have hlisted : lists os o.key = true :=
      List.any_eq_true.2 ⟨o, List.mem_of_getElem? ho, beq_self_eq_true _⟩
    have hkept : (s.keepListed os).objects.get? o.key = s.objects.get? o.key := by
      rw [keepListed, Table.get?_filter, hlisted]
      cases s.objects.get? o.key <;> rfl
    simp only [Option.map_some, hkept]

theorem get?_relisted (s : Store) (os : List Object) (k : String) :
    (s.apply (.relisted os)).1.objects.get? k = lastUnder os k := by
  show ((s.keepListed os).putAll os).1.objects.get? k = lastUnder os k
  rw [get?_putAll, keepListed, Table.get?_filter, ← isSome_lastUnder]
  cases lastUnder os k with
  | none => cases s.objects.get? k <;> rfl
  | some o => rfl

theorem tells_relisted_iff (hs : s.Keyed) {ds : List Callback} :
    s.Tells (.relisted os) ds ↔ s.Reconciles os ds := by
  have htold : ((s.keepListed os).putAll os).2 = s.seenAll os := by
    rw [snd_putAll, seenAll_keepListed]
  constructor
  · intro h
    cases h with
    | @relisted _ gone hgone => exact ⟨gone, (perm_vanished_iff hs).1 hgone, by rw [htold]⟩
  · rintro ⟨gone, hgone, rfl⟩
    rw [← htold]
    exact .relisted os ((perm_vanished_iff hs).2 hgone)

/-! ### One change after the other -/

theorem keyed_receiveAll (hs : s.Keyed) (is : List Item) : (s.receiveAll is).1.Keyed := by
  induction is generalizing s with
  | nil => exact hs
  | cons i is ih =>
    cases i with
    | change c => exact ih (keyed_apply hs c)
    | failed message => exact ih hs

theorem receiveAll_deleted {gone : List Object} (hnodup : (gone.map (·.key)).Nodup)
    (hheld : ∀ o ∈ gone, s.objects.get? o.key = some o) :
    s.receiveAll (gone.map fun o => .change (.deleted o)) =
      (⟨gone.foldl (fun m o => m.erase o.key) s.objects⟩, gone.map .deleted) := by
  induction gone generalizing s with
  | nil => rfl
  | cons o gone ih =>
    rw [List.map_cons, List.nodup_cons] at hnodup
    have hrest : ∀ o' ∈ gone, (s.drop o).1.objects.get? o'.key = some o' := by
      intro o' ho'
      have hne : o.key ≠ o'.key := fun h => hnodup.1 (h ▸ List.mem_map_of_mem ho')
      simpa [drop, hne] using hheld o' (by simp [ho'])
    have hfirst : (s.drop o).2 = .deleted o := by
      simp [drop, hheld o (by simp)]
    have hstep : s.receiveAll ((o :: gone).map fun o => .change (.deleted o)) =
        (((s.drop o).1.receiveAll (gone.map fun o => .change (.deleted o))).1,
          (s.drop o).2 ::
            ((s.drop o).1.receiveAll (gone.map fun o => .change (.deleted o))).2) := rfl
    rw [hstep, ih hnodup.2 hrest, hfirst]
    rfl

theorem receiveAll_applied (s : Store) (os : List Object) :
    s.receiveAll (os.map fun o => .change (.applied o)) = s.putAll os := by
  induction os generalizing s with
  | nil => rfl
  | cons o os ih =>
    have hstep : s.receiveAll ((o :: os).map fun o => .change (.applied o)) =
        (((s.put o).1.receiveAll (os.map fun o => .change (.applied o))).1,
          (s.put o).2 :: ((s.put o).1.receiveAll (os.map fun o => .change (.applied o))).2) := rfl
    rw [hstep, ih, putAll_cons]

/-- Whatever has come to a store, a relist reconciles it: the callbacks that may tell of it are
deletions of what is held and not listed, each once and in any order, and then one addition or
update for each listed object in its turn. The store then holds what is listed last under each key
and nothing else, so that any other store is the same after the same relist; and all goes as if what
is gone were deleted and the listed objects applied one by one. -/
theorem relist_reconciles (is : List Item) (os : List Object) :
    let s := (receiveAll {} is).1
    let t := (s.apply (.relisted os)).1
    s.Reconciles os (s.apply (.relisted os)).2 ∧
      (∀ ds, s.Tells (.relisted os) ds ↔ s.Reconciles os ds) ∧
      (∀ k, t.objects.get? k = lastUnder os k) ∧
      (∀ s' : Store, (s'.apply (.relisted os)).1 = t) ∧
      ∀ gone, s.Gone os gone →
        s.receiveAll ((gone.map fun o => .change (.deleted o)) ++
            os.map fun o => .change (.applied o)) =
          (t, gone.map .deleted ++ s.seenAll os) := by
  intro s t
  have hs : s.Keyed := keyed_receiveAll keyed_empty is
  have hsame : ∀ s' : Store, (s'.apply (.relisted os)).1 = t := by
    intro s'
    have hobjects : (s'.apply (.relisted os)).1.objects = t.objects :=
      Table.ext fun k => by rw [get?_relisted, get?_relisted]
    exact congrArg Store.mk hobjects
  refine ⟨(tells_relisted_iff hs).1 (s.tells_apply _), fun ds => tells_relisted_iff hs,
    get?_relisted s os, hsame, fun gone hgone => ?_⟩
  have hkept : (⟨gone.foldl (fun m o => m.erase o.key) s.objects⟩ : Store) = s.keepListed os :=
    congrArg Store.mk (foldl_erase_vanished hs ((perm_vanished_iff hs).2 hgone))
  rw [receiveAll_append, receiveAll_deleted hgone.once hgone.held, hkept, receiveAll_applied,
    snd_putAll, seenAll_keepListed]
  rfl

/-- A list has the first of two objects changed, not the second, and a third one twice. -/
example :
    let a₁ := Sample.versioned "a" "1"
    let a₂ := Sample.versioned "a" "2"
    let b := Sample.versioned "b" "1"
    let c₁ := Sample.versioned "c" "1"
    let c₂ := Sample.versioned "c" "2"
    let s := (receiveAll {} [.change (.applied a₁), .change (.applied b)]).1
    (s.apply (.relisted [c₁, a₂, c₂])).2 =
      [.deleted b, .added c₁, .updated a₁ a₂, .updated c₁ c₂] := rfl

end Store

end SessionWatch.Cluster
