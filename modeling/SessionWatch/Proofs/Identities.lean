import SessionWatch.Proofs.Relisting

/-!
Which objects a change is about. The key of an object joins its namespace and its name by a slash;
as no namespace has a slash in it, a key tells the two apart whatever the name is. So a change about
one object leaves every other one as it is and tells nothing of it, and only a relist takes away what
it does not list.
-/

namespace SessionWatch.Cluster

/-! ### Keys -/

theorem append_cons_eq_append_cons_iff {α : Type} {sep : α} {as bs cs ds : List α} (ha : sep ∉ as)
    (hb : sep ∉ bs) : as ++ sep :: cs = bs ++ sep :: ds ↔ as = bs ∧ cs = ds := by
  induction as generalizing bs with
  | nil =>
    cases bs with
    | nil => simp
    | cons b bs =>
      have hne : sep ≠ b := fun h => hb (by simp [h])
      simp [hne]
  | cons a as ih =>
    cases bs with
    | nil =>
      have hne : a ≠ sep := fun h => ha (by simp [h])
      simp [hne]
    | cons b bs =>
      have hrest := ih (List.not_mem_of_not_mem_cons ha) (List.not_mem_of_not_mem_cons hb)
      simp [hrest, and_assoc]

namespace Object

/-- Namespace and name; a namespace that is missing counts as the empty one. -/
def identity (o : Object) : String × Option String := (o.metadata.ns.getD "", o.metadata.name)

/-- An object as a server keeps it: it has a name, and no slash is in its namespace. -/
structure IsProper (o : Object) : Prop where
  named : o.identity.2.isSome
  flat : '/' ∉ o.identity.1.toList

variable {a b o : Object}

theorem IsProper.of_identity (ha : a.IsProper) (h : b.identity = a.identity) : b.IsProper :=
  ⟨h ▸ ha.named, h ▸ ha.flat⟩

theorem toList_key {name : String} (hname : o.metadata.name = some name) :
    o.key.toList = o.identity.1.toList ++ '/' :: name.toList := by
  have hdisplay : o.displayName = name := by simp [displayName, hname]
  rw [key, hdisplay]
  simp [identity]

theorem IsProper.key_eq_iff (ha : a.IsProper) (hb : b.IsProper) :
    a.key = b.key ↔ a.identity = b.identity := by
  obtain ⟨n, hn⟩ := Option.isSome_iff_exists.1 ha.named
  obtain ⟨m, hm⟩ := Option.isSome_iff_exists.1 hb.named
  rw [← String.toList_inj, toList_key hn, toList_key hm,
    append_cons_eq_append_cons_iff ha.flat hb.flat, String.toList_inj, String.toList_inj,
    Prod.ext_iff, hn, hm, Option.some_inj]

/-- A slash in a namespace would make one key of two objects. -/
example :
    let a : Object := { metadata := { ns := some "x", name := some "y/z" } }
    let b : Object := { metadata := { ns := some "x/y", name := some "z" } }
    a.key = b.key ∧ a.identity ≠ b.identity := by
  decide +kernel

end Object

/-! ### What changes and callbacks are about -/

def Change.objects : Change → List Object
  | .applied o => [o]
  | .deleted o => [o]
  | .relisted os => os

def Item.objects : Item → List Object
  | .change c => c.objects
  | .failed _ => []

/-- The last that a change says of an object of that identity. -/
def Change.last? (i : String × Option String) : Change → Option Object
  | .applied o => some o
  | .deleted _ => none
  | .relisted os => (os.filter fun o => o.identity = i).getLast?

/-- A change is about objects of these identities. -/
def Change.Concerns (c : Change) (i : String × Option String) : Prop :=
  ∃ o ∈ c.objects, o.identity = i

def Callback.shown : Callback → List Object
  | .added o => [o]
  | .updated old new => [old, new]
  | .deleted o => [o]
  | .failed _ => []

theorem Callback.mem_shown_seen {known : Option Object} {o x : Object} :
    x ∈ (Callback.seen known o).shown ↔ known = some x ∨ x = o := by
  cases known <;> simp [Callback.seen, Callback.shown, eq_comm]

theorem mem_of_lastUnder {os : List Object} {k : String} {o : Object}
    (h : lastUnder os k = some o) : o ∈ os ∧ o.key = k := by
  simpa using List.mem_of_getLast? h

namespace Store

def Holds (s : Store) (o : Object) : Prop := ∃ k, s.objects.get? k = some o

variable {s : Store} {c : Change} {ds : List Callback} {d : Callback} {x y o : Object}

theorem holds_iff (hs : s.Keyed) : s.Holds x ↔ s.objects.get? x.key = some x := by
  refine ⟨?_, fun h => ⟨_, h⟩⟩
  rintro ⟨k, hk⟩
  rwa [hs k x hk]

theorem holds_apply_iff (hs : s.Keyed) : (s.apply c).1.Holds x ↔
    match c with
    | .applied o => if o.key = x.key then o = x else s.Holds x
    | .deleted o => o.key ≠ x.key ∧ s.Holds x
    | .relisted os => lastUnder os x.key = some x := by
  rw [holds_iff (keyed_apply hs c), holds_iff hs]
  cases c with
  | applied o =>
    simp only [apply, put_eq, Table.get?_insert]
    split <;> simp
  | deleted o =>
    simp only [apply, drop, Table.get?_erase]
    split <;> simp_all
  | relisted os => rw [get?_relisted]

/-- What can be told of a change: an object that it is about, beside what was known under the key, or
the deletion of what was known. -/
inductive Told (s : Store) : Change → Callback → Prop
  | seen {c : Change} {o : Object} {known : Option Object} : o ∈ c.objects →
      (∀ old, known = some old → old.key = o.key ∧ (old ∈ c.objects ∨ s.Holds old)) →
      Told s c (.seen known o)
  | deleted {o x : Object} : x.key = o.key → x = o ∨ s.Holds x → Told s (.deleted o) (.deleted x)
  | vanished {os : List Object} {x : Object} : s.Holds x → lists os x.key = false →
      Told s (.relisted os) (.deleted x)

theorem told_of_tells (hs : s.Keyed) (h : s.Tells c ds) (hd : d ∈ ds) : s.Told c d := by
  have hheld : ∀ {k : String} {old : Object}, s.objects.get? k = some old →
      old.key = k ∧ s.Holds old := fun h => ⟨hs _ _ h, _, h⟩
  cases h with
  | applied o =>
    simp only [apply, put_eq, List.mem_singleton] at hd
    rw [hd]
    exact .seen (by simp [Change.objects]) fun old hold => ⟨(hheld hold).1, .inr (hheld hold).2⟩
  | deleted o =>
    simp only [apply, drop, List.mem_singleton] at hd
    rw [hd]
    cases hget : s.objects.get? o.key with
    | none => exact .deleted rfl (.inl rfl)
    | some old => exact .deleted (hheld hget).1 (.inr (hheld hget).2)
  | @relisted os gone hgone =>
    rw [snd_putAll, seenAll_keepListed] at hd
    rcases List.mem_append.1 hd with hd | hd
    · obtain ⟨x, hx, rfl⟩ := List.mem_map.1 hd
      obtain ⟨hget, hunlisted⟩ := mem_vanished hs (hgone.mem_iff.1 hx)
      exact .vanished (hheld hget).2 hunlisted
    · obtain ⟨i, hi, rfl⟩ := List.mem_mapIdx.1 hd
      refine .seen (List.getElem_mem hi) fun old hold => ?_
      rcases Option.or_eq_some_iff.1 hold with hlast | ⟨-, hget⟩
      · obtain ⟨hmem, hkey⟩ := mem_of_lastUnder hlast
        exact ⟨hkey, .inl (List.mem_of_mem_take hmem)⟩
      · exact ⟨(hheld hget).1, .inr (hheld hget).2⟩

theorem mem_or_holds_of_told (h : s.Told c d) (hx : x ∈ d.shown) : x ∈ c.objects ∨ s.Holds x := by
  cases h with
  | seen ho hknown =>
    rcases Callback.mem_shown_seen.1 hx with hx | rfl
    · exact (hknown x hx).2
    · exact .inl ho
  | deleted _ hfrom =>
    obtain rfl := List.mem_singleton.1 hx
    exact hfrom.imp (fun h => by simp [Change.objects, h]) id
  | vanished hheld _ =>
    obtain rfl := List.mem_singleton.1 hx
    exact .inr hheld

/-! ### Objects as a server keeps them -/

def IsProper (s : Store) : Prop := ∀ o, s.Holds o → o.IsProper

theorem mem_or_holds_of_holds_apply (hs : s.Keyed) (h : (s.apply c).1.Holds x) :
    x ∈ c.objects ∨ s.Holds x := by
  rw [holds_apply_iff hs] at h
  cases c with
  | applied o =>
    simp only at h
    split at h
    · exact .inl (by simp [Change.objects, h])
    · exact .inr h
  | deleted o => exact .inr h.2
  | relisted os => exact .inl (mem_of_lastUnder h).1

theorem isProper_receiveAll (hs : s.Keyed) (hproper : s.IsProper) {is : List Item}
    (his : ∀ i ∈ is, ∀ o ∈ i.objects, o.IsProper) : (s.receiveAll is).1.IsProper := by
  induction is generalizing s with
  | nil => exact hproper
  | cons i is ih =>
    have hrest : ∀ i ∈ is, ∀ o ∈ i.objects, o.IsProper := fun i hi => his i (by simp [hi])
    cases i with
    | failed message => exact ih hs hproper hrest
    | change c =>
      refine ih (keyed_apply hs c) (fun x hx => ?_) hrest
      rcases mem_or_holds_of_holds_apply hs hx with hmem | hheld
      · exact his (.change c) (by simp) x hmem
      · exact hproper x hheld

section Proper

variable (hs : s.Keyed) (hproper : s.IsProper) (hc : ∀ o ∈ c.objects, o.IsProper)
include hc

theorem isProper_of_mem_or_holds (hproper : s.IsProper) (h : x ∈ c.objects ∨ s.Holds x) :
    x.IsProper := h.elim (hc x) (hproper x)

include hproper

/-- What is told is about the identity of one of the objects of the change, or else it is that a relist
takes an object away. -/
theorem identity_of_told (h : s.Told c d) :
    (∃ o ∈ c.objects, ∀ x ∈ d.shown, x.identity = o.identity) ∨
      ∃ os x, c = .relisted os ∧ d = .deleted x ∧ s.Holds x := by
  cases h with
  | @seen _ o known ho hknown =>
    refine .inl ⟨o, ho, fun x hx => ?_⟩
    rcases Callback.mem_shown_seen.1 hx with hx | rfl
    · obtain ⟨hkey, hfrom⟩ := hknown x hx
      exact ((isProper_of_mem_or_holds hc hproper hfrom).key_eq_iff (hc o ho)).1 hkey
    · rfl
  | @deleted o y hkey hfrom =>
    have ho : o ∈ (Change.deleted o).objects := by simp [Change.objects]
    have hy : y ∈ (Change.deleted o).objects ∨ s.Holds y :=
      hfrom.imp (fun h => by simp [Change.objects, h]) id
    refine .inl ⟨o, ho, fun x hx => ?_⟩
    obtain rfl := List.mem_singleton.1 hx
    exact ((isProper_of_mem_or_holds hc hproper hy).key_eq_iff (hc o ho)).1 hkey
  | @vanished os y hheld _ => exact .inr ⟨os, y, rfl, rfl, hheld⟩

theorem eq_deleted_of_told (h : s.Told c d) (hx : x ∈ d.shown) (hother : ¬ c.Concerns x.identity) :
    (∃ os, c = .relisted os) ∧ d = .deleted x ∧ s.Holds x := by
  rcases identity_of_told hproper hc h with ⟨o, ho, hsame⟩ | ⟨os, y, rfl, rfl, hheld⟩
  · exact absurd ⟨o, ho, (hsame x hx).symm⟩ hother
  · obtain rfl := List.mem_singleton.1 hx
    exact ⟨⟨os, rfl⟩, rfl, hheld⟩

include hs

theorem eq_of_holds_apply (hx : (s.apply c).1.Holds x) (hy : (s.apply c).1.Holds y)
    (h : x.identity = y.identity) : x = y := by
  have hkeyed := keyed_apply hs c
  have hall : ∀ {z}, (s.apply c).1.Holds z → z.IsProper := fun hz =>
    isProper_of_mem_or_holds hc hproper (mem_or_holds_of_holds_apply hs hz)
  have hkey : x.key = y.key := ((hall hx).key_eq_iff (hall hy)).2 h
  rw [holds_iff hkeyed] at hx hy
  rw [hkey, hy] at hx
  exact (Option.some.inj hx).symm

end Proper

/-- Of the identities that a change is about, a store holds what the change says last. -/
theorem holds_apply_of_concerns (hs : s.Keyed) (hc : ∀ o ∈ c.objects, o.IsProper)
    (h : c.Concerns x.identity) :
    (s.apply c).1.Holds x ↔ c.last? x.identity = some x := by
  obtain ⟨o₀, ho₀, hsame⟩ := h
  have hx : x.IsProper := (hc o₀ ho₀).of_identity hsame.symm
  have hkey : ∀ o ∈ c.objects, o.key = x.key ↔ o.identity = x.identity := fun o ho =>
    (hc o ho).key_eq_iff hx
  rw [holds_apply_iff hs]
  cases c with
  | applied o =>
    obtain rfl := List.mem_singleton.1 ho₀
    simp only [(hkey o₀ ho₀).2 hsame, if_true, Change.last?, Option.some_inj]
  | deleted o =>
    obtain rfl := List.mem_singleton.1 ho₀
    simp [(hkey o₀ ho₀).2 hsame, Change.last?]
  | relisted os =>
    have hfilter : (os.filter fun o => o.key = x.key) =
        os.filter fun o => o.identity = x.identity :=
      List.filter_congr fun o ho => decide_eq_decide.2 (hkey o ho)
    simp only [lastUnder, Change.last?, hfilter]

/-- A change leaves an object as it is and tells nothing of it. -/
structure Spares (s : Store) (c : Change) (x : Object) : Prop where
  kept : (s.apply c).1.Holds x ↔ s.Holds x
  untold : ∀ ds, s.Tells c ds → ∀ d ∈ ds, x ∉ d.shown

/-- A change leaves no such object, and if there was one, its deletion is all that is told of it. -/
structure Drops (s : Store) (c : Change) (x : Object) : Prop where
  gone : ¬ (s.apply c).1.Holds x
  told : ∀ ds, s.Tells c ds → (.deleted x ∈ ds ↔ s.Holds x) ∧
    ∀ d ∈ ds, x ∈ d.shown → d = .deleted x

theorem spares_of_not_concerns (hs : s.Keyed) (hproper : s.IsProper)
    (hc : ∀ o ∈ c.objects, o.IsProper) (hsingle : ∀ os, c ≠ .relisted os)
    (hother : ¬ c.Concerns x.identity) : s.Spares c x where
  kept := by
    have hkey : x.IsProper → ∀ o ∈ c.objects, o.key ≠ x.key := fun hx o ho h =>
      hother ⟨o, ho, ((hc o ho).key_eq_iff hx).1 h⟩
    rw [holds_apply_iff hs]
    cases c with
    | applied o =>
      have ho : o ∈ (Change.applied o).objects := by simp [Change.objects]
      by_cases h : o.key = x.key
      · have hne : o ≠ x := fun hox => hother ⟨o, ho, by rw [hox]⟩
        have hnot : ¬ s.Holds x := fun hheld => hkey (hproper x hheld) o ho h
        simp [h, hne, hnot]
      · simp [h]
    | deleted o =>
      have ho : o ∈ (Change.deleted o).objects := by simp [Change.objects]
      exact ⟨fun h => h.2, fun hheld => ⟨hkey (hproper x hheld) o ho, hheld⟩⟩
    | relisted os => exact absurd rfl (hsingle os)
  untold ds hds d hd hx := by
    obtain ⟨⟨os, hos⟩, -⟩ := eq_deleted_of_told hproper hc (told_of_tells hs hds hd) hx hother
    exact hsingle os hos

theorem drops_of_not_concerns (hs : s.Keyed) (hproper : s.IsProper) {os : List Object}
    (hos : ∀ o ∈ os, o.IsProper) (hother : ¬ (Change.relisted os).Concerns x.identity) :
    s.Drops (.relisted os) x where
  gone h := by
    rw [holds_apply_iff hs] at h
    exact hother ⟨x, (mem_of_lastUnder h).1, rfl⟩
  told ds hds := by
    have hall : ∀ d ∈ ds, x ∈ d.shown → d = .deleted x ∧ s.Holds x := fun d hd hx =>
      (eq_deleted_of_told (c := .relisted os) hproper hos (told_of_tells hs hds hd) hx hother).2
    refine ⟨⟨fun h => (hall _ h (by simp [Callback.shown])).2, fun hheld => ?_⟩,
      fun d hd hx => (hall d hd hx).1⟩
    obtain ⟨gone, hgone, rfl⟩ := (tells_relisted_iff hs).1 hds
    have hunlisted : ∀ o ∈ os, o.key ≠ x.key := fun o ho h =>
      hother ⟨o, ho, ((hos o ho).key_eq_iff (hproper x hheld)).1 h⟩
    have hmem : x ∈ gone := (hgone.mem_iff x).2 ⟨(holds_iff hs).1 hheld, hunlisted⟩
    exact List.mem_append_left _ (List.mem_map_of_mem hmem)

/-- Keys tell objects apart by name and namespace, whatever has a slash in it but a namespace. So,
whatever has come to a store, a change has the last word on the objects that it is about, one of each
identity; it spares every other object, except that a relist drops those that it does not list; and
what is told of a change is told of one identity at a time, with the objects of the change and those
that were held. -/
theorem changes_keep_to_their_objects :
    (∀ a b : Object, a.IsProper → b.IsProper → (a.key = b.key ↔
      a.metadata.name = b.metadata.name ∧ a.metadata.ns.getD "" = b.metadata.ns.getD "")) ∧
    ∀ (is : List Item) (c : Change), (∀ i ∈ is ++ [.change c], ∀ o ∈ i.objects, o.IsProper) →
      let s := (receiveAll {} is).1
      let t := (s.apply c).1
      (∀ x y, t.Holds x → t.Holds y → x.identity = y.identity → x = y) ∧
      (∀ x, c.Concerns x.identity → (t.Holds x ↔ c.last? x.identity = some x)) ∧
      (∀ x, ¬ c.Concerns x.identity →
        match c with
        | .relisted _ => s.Drops c x
        | _ => s.Spares c x) ∧
      ∀ ds, s.Tells c ds → ∀ d ∈ ds, (∀ x ∈ d.shown, x ∈ c.objects ∨ s.Holds x) ∧
        ∀ x ∈ d.shown, ∀ y ∈ d.shown, x.identity = y.identity := by
  refine ⟨fun a b ha hb => ?_, fun is c h => ?_⟩
  · rw [ha.key_eq_iff hb, Prod.ext_iff, and_comm]
    rfl
  · intro s t
    have hs : s.Keyed := keyed_receiveAll keyed_empty is
    have hempty : IsProper {} := by
      rintro o ⟨k, hk⟩
      simp at hk
    have hproper : s.IsProper :=
      isProper_receiveAll keyed_empty hempty fun i hi => h i (List.mem_append_left _ hi)
    have hc : ∀ o ∈ c.objects, o.IsProper := h (.change c) (by simp)
    refine ⟨fun x y => eq_of_holds_apply hs hproper hc,
      fun x => holds_apply_of_concerns hs hc, fun x hother => ?_, fun ds hds d hd => ?_⟩
    · cases c with
      | applied o => exact spares_of_not_concerns hs hproper hc (by simp) hother
      | deleted o => exact spares_of_not_concerns hs hproper hc (by simp) hother
      | relisted os => exact drops_of_not_concerns hs hproper hc hother
    · have htold := told_of_tells hs hds hd
      refine ⟨fun x hx => mem_or_holds_of_told htold hx, fun x hx y hy => ?_⟩
      rcases identity_of_told hproper hc htold with ⟨o, -, hsame⟩ | ⟨os, z, -, rfl, -⟩
      · exact (hsame x hx).trans (hsame y hy).symm
      · rw [List.mem_singleton.1 hx, List.mem_singleton.1 hy]

end Store

/-! Two objects whose keys have the same parts between their slashes. -/

namespace Sample

def placed (ns : Option String) (name version : String) : Object :=
  { metadata := { name := some name, ns, version := some version } }

def slashed : List Item :=
  [.change (.applied (placed (some "x") "y/z" "1")), .change (.applied (placed none "x/y/z" "2"))]

end Sample

theorem Store.changes_keep_to_their_objects_sample :
    let c : Change := .applied (Sample.placed (some "x") "y/z" "3")
    let s := (receiveAll {} Sample.slashed).1
    (∀ i ∈ Sample.slashed ++ [.change c], ∀ o ∈ i.objects, o.IsProper) ∧
      (s.apply c).1.Holds (Sample.placed (some "x") "y/z" "3") ∧
      (s.apply c).1.Holds (Sample.placed none "x/y/z" "2") ∧
      ¬ (s.apply c).1.Holds (Sample.placed (some "x") "y/z" "1") := by
  intro c s
  have hproper : ∀ i ∈ Sample.slashed ++ [.change c], ∀ o ∈ i.objects, o.IsProper := by
    have hplaced : ∀ v, (Sample.placed (some "x") "y/z" v).IsProper := fun v =>
      ⟨rfl, (by decide : '/' ∉ "x".toList)⟩
    have hbare : (Sample.placed none "x/y/z" "2").IsProper := ⟨rfl, by decide⟩
    simp [Sample.slashed, c, Item.objects, Change.objects, hplaced, hbare]
  obtain ⟨hone, hlast, hothers, -⟩ := changes_keep_to_their_objects.2 Sample.slashed c hproper
  have hconcerns : c.Concerns ("x", some "y/z") := ⟨_, List.mem_singleton_self _, rfl⟩
  have hnew := (hlast (Sample.placed (some "x") "y/z" "3") hconcerns).2 rfl
  have hspared : s.Spares c (Sample.placed none "x/y/z" "2") := hothers _ (by
    rintro ⟨o, ho, hsame⟩
    obtain rfl := List.mem_singleton.1 ho
    revert hsame
    decide +kernel)
  refine ⟨hproper, hnew, hspared.kept.2 ⟨"/x/y/z", rfl⟩, fun hold => ?_⟩
  have hsame := hone _ _ hold hnew rfl
  simp [Sample.placed] at hsame

end SessionWatch.Cluster
