/-!
Finite maps from text to values, kept in key order. Two tables that answer every look-up
alike are equal, so a state made of tables is determined by what it answers.
-/

namespace SessionWatch

namespace Table

/-- Put a value under a key into a list in key order, over an entry with that key. -/
def insertEntry {α : Type} (k : String) (v : α) : List (String × α) → List (String × α)
  | [] => [(k, v)]
  | e :: es =>
    if k < e.1 then (k, v) :: e :: es
    else if e.1 < k then e :: insertEntry k v es
    else (k, v) :: es

def lookupEntry {α : Type} (k : String) : List (String × α) → Option α
  | [] => none
  | e :: es => if e.1 = k then some e.2 else lookupEntry k es

abbrev InOrder {α : Type} (es : List (String × α)) : Prop :=
  es.Pairwise fun a b => a.1 < b.1

theorem eq_of_not_lt {a b : String} (h : ¬ a < b) (h' : ¬ b < a) : a = b :=
  String.le_antisymm (String.not_lt.1 h') (String.not_lt.1 h)

theorem mem_insertEntry {α : Type} {k : String} {v : α} {x : String × α}
    {es : List (String × α)} (h : x ∈ insertEntry k v es) : x = (k, v) ∨ x ∈ es := by
  induction es with
  | nil => simpa [insertEntry] using h
  | cons e es ih =>
    simp only [insertEntry] at h
    split at h
    · simpa using h
    · split at h
      · rcases List.mem_cons.1 h with h | h
        · exact .inr (h ▸ List.mem_cons_self)
        · rcases ih h with h | h
          · exact .inl h
          · exact .inr (List.mem_cons_of_mem _ h)
      · rcases List.mem_cons.1 h with h | h
        · exact .inl h
        · exact .inr (List.mem_cons_of_mem _ h)

theorem inOrder_insertEntry {α : Type} (k : String) (v : α) {es : List (String × α)}
    (h : InOrder es) : InOrder (insertEntry k v es) := by
  induction es with
  | nil => exact List.pairwise_singleton _ _
  | cons e es ih =>
    obtain ⟨hh, ht⟩ := List.pairwise_cons.1 h
    simp only [insertEntry]
    split
    · rename_i hk
      refine List.pairwise_cons.2 ⟨fun x hx => ?_, h⟩
      rcases List.mem_cons.1 hx with rfl | hx
      · exact hk
      · exact String.lt_trans hk (hh x hx)
    · split
      · rename_i hk
        refine List.pairwise_cons.2 ⟨fun x hx => ?_, ih ht⟩
        rcases mem_insertEntry hx with rfl | hx
        · exact hk
        · exact hh x hx
      · rename_i h₁ h₂
        have he : e.1 = k := eq_of_not_lt h₂ h₁
        exact List.pairwise_cons.2 ⟨fun x hx => he ▸ hh x hx, ht⟩

theorem lookupEntry_eq_none {α : Type} {k : String} {es : List (String × α)}
    (h : ∀ e ∈ es, k < e.1) : lookupEntry k es = none := by
  induction es with
  | nil => rfl
  | cons e es ih =>
    have hk : e.1 ≠ k := fun he => String.lt_irrefl k (he ▸ h e List.mem_cons_self)
    simp [lookupEntry, hk, ih fun x hx => h x (List.mem_cons_of_mem _ hx)]

theorem lookupEntry_insertEntry {α : Type} (k j : String) (v : α) {es : List (String × α)}
    (h : InOrder es) :
    lookupEntry j (insertEntry k v es) = if k = j then some v else lookupEntry j es := by
  induction es with
  | nil => rfl
  | cons e es ih =>
    obtain ⟨hh, ht⟩ := List.pairwise_cons.1 h
    simp only [insertEntry]
    split
    · rfl
    · split
      · rename_i hk
        by_cases hj : k = j
        · subst hj
          have hne : e.1 ≠ k := fun he => String.lt_irrefl k (he ▸ hk)
          simp [lookupEntry, hne, ih ht]
        · simp [lookupEntry, hj, ih ht]
      · rename_i h₁ h₂
        have he : e.1 = k := eq_of_not_lt h₂ h₁
        by_cases hj : k = j <;> simp [lookupEntry, he, hj]

theorem lookupEntry_eq_some_iff {α : Type} {k : String} {v : α} {es : List (String × α)}
    (h : InOrder es) : lookupEntry k es = some v ↔ (k, v) ∈ es := by
  induction es with
  | nil => simp [lookupEntry]
  | cons e es ih =>
    obtain ⟨hh, ht⟩ := List.pairwise_cons.1 h
    by_cases he : e.1 = k
    · subst he
      constructor
      · intro hv
        simp only [lookupEntry, if_pos, Option.some.injEq] at hv
        subst hv
        exact List.mem_cons_self
      · intro hv
        rcases List.mem_cons.1 hv with hv | hv
        · have h₂ : e.2 = v := (congrArg Prod.snd hv).symm
          simp [lookupEntry, h₂]
        · exact absurd (hh _ hv) (String.lt_irrefl _)
    · have hne : (k, v) ≠ e := fun hv => he (congrArg Prod.fst hv).symm
      simp [lookupEntry, he, hne, ih ht]

theorem length_insertEntry {α : Type} (k : String) (v : α) {es : List (String × α)}
    (h : InOrder es) : (insertEntry k v es).length =
      es.length + if (lookupEntry k es).isSome then 0 else 1 := by
  induction es with
  | nil => rfl
  | cons e es ih =>
    obtain ⟨hhead, htail⟩ := List.pairwise_cons.1 h
    rw [insertEntry]
    split
    · next hk =>
      have hnone : lookupEntry k (e :: es) = none :=
        lookupEntry_eq_none fun x hx => by
          rcases List.mem_cons.1 hx with rfl | hx
          · exact hk
          · exact String.lt_trans hk (hhead x hx)
      simp [hnone]
    · split
      · next hk =>
        have hne : e.1 ≠ k := fun he => String.lt_irrefl k (he ▸ hk)
        rw [List.length_cons, ih htail, lookupEntry, if_neg hne, List.length_cons]
        omega
      · next hk hk' =>
        have he : e.1 = k := eq_of_not_lt hk' hk
        simp [lookupEntry, he]

theorem eq_of_lookupEntry {α : Type} {es fs : List (String × α)} (he : InOrder es)
    (hf : InOrder fs) (h : ∀ k, lookupEntry k es = lookupEntry k fs) : es = fs := by
  induction es generalizing fs with
  | nil =>
    cases fs with
    | nil => rfl
    | cons f fs => simpa [lookupEntry] using h f.1
  | cons e es ih =>
    cases fs with
    | nil => simpa [lookupEntry] using h e.1
    | cons f fs =>
      obtain ⟨hhe, hte⟩ := List.pairwise_cons.1 he
      obtain ⟨hhf, htf⟩ := List.pairwise_cons.1 hf
      have hef : e ∈ f :: fs := (lookupEntry_eq_some_iff hf).1 (by rw [← h]; simp [lookupEntry])
      have hfe : f ∈ e :: es := (lookupEntry_eq_some_iff he).1 (by rw [h]; simp [lookupEntry])
      have heq : e = f := by
        rcases List.mem_cons.1 hef with hef | hef
        · exact hef
        · rcases List.mem_cons.1 hfe with hfe | hfe
          · exact hfe.symm
          · exact absurd (hhe _ hfe) (String.lt_asymm (hhf _ hef))
      subst heq
      refine congrArg _ (ih hte htf fun k => ?_)
      by_cases hk : e.1 = k
      · subst hk
        rw [lookupEntry_eq_none hhe, lookupEntry_eq_none hhf]
      · simpa [lookupEntry, hk] using h k

end Table

/-- A finite map from text, its entries in key order. -/
structure Table (α : Type) where
  entries : List (String × α)
  inOrder : Table.InOrder entries := by exact List.Pairwise.nil

namespace Table

variable {α : Type}

theorem eq_of_entries {s t : Table α} (h : s.entries = t.entries) : s = t := by
  cases s; cases t; cases h; rfl

instance [DecidableEq α] : DecidableEq (Table α) := fun s t =>
  if h : s.entries = t.entries then .isTrue (eq_of_entries h)
  else .isFalse fun he => h (he ▸ rfl)

instance : Inhabited (Table α) := ⟨⟨[], .nil⟩⟩

instance : EmptyCollection (Table α) := ⟨⟨[], .nil⟩⟩

def get? (t : Table α) (k : String) : Option α := lookupEntry k t.entries

def insert (t : Table α) (k : String) (v : α) : Table α :=
  ⟨insertEntry k v t.entries, inOrder_insertEntry k v t.inOrder⟩

def erase (t : Table α) (k : String) : Table α :=
  ⟨t.entries.filter fun e => e.1 ≠ k, t.inOrder.filter _⟩

/-- Later entries replace earlier ones with the same key. -/
def ofList (es : List (String × α)) : Table α :=
  es.foldl (fun t e => t.insert e.1 e.2) ∅

def contains (t : Table α) (k : String) : Bool := (t.get? k).isSome

def keys (t : Table α) : List String := t.entries.map (·.1)

def size (t : Table α) : Nat := t.entries.length

def filter (t : Table α) (p : String → α → Bool) : Table α :=
  ⟨t.entries.filter fun e => p e.1 e.2, t.inOrder.filter _⟩

theorem ext {s t : Table α} (h : ∀ k, s.get? k = t.get? k) : s = t :=
  eq_of_entries (eq_of_lookupEntry s.inOrder t.inOrder h)

@[simp] theorem entries_empty : (∅ : Table α).entries = [] := rfl

@[simp] theorem get?_empty (k : String) : (∅ : Table α).get? k = none := rfl

theorem get?_eq_some_iff {t : Table α} {k : String} {v : α} :
    t.get? k = some v ↔ (k, v) ∈ t.entries :=
  lookupEntry_eq_some_iff t.inOrder

@[simp] theorem get?_insert (t : Table α) (k j : String) (v : α) :
    (t.insert k v).get? j = if k = j then some v else t.get? j :=
  lookupEntry_insertEntry k j v t.inOrder

theorem size_insert (t : Table α) (k : String) (v : α) :
    (t.insert k v).size = t.size + if t.contains k then 0 else 1 :=
  length_insertEntry k v t.inOrder

@[simp] theorem get?_erase (t : Table α) (k j : String) :
    (t.erase k).get? j = if k = j then none else t.get? j := by
  have h : ∀ es : List (String × α), lookupEntry j (es.filter fun e => e.1 ≠ k) =
      if k = j then none else lookupEntry j es := by
    intro es
    induction es with
    | nil => simp [lookupEntry]
    | cons e es ih =>
      by_cases he : e.1 = k
      · subst he
        by_cases hj : e.1 = j <;> simp_all [lookupEntry]
      · by_cases hj : e.1 = j
        · subst hj
          simp [lookupEntry, he, Ne.symm he]
        · simp_all [lookupEntry]
  exact h t.entries

@[simp] theorem get?_filter (t : Table α) (p : String → α → Bool) (k : String) :
    (t.filter p).get? k = (t.get? k).filter (p k) := by
  have h : ∀ es : List (String × α), InOrder es →
      lookupEntry k (es.filter fun e => p e.1 e.2) = (lookupEntry k es).filter (p k) := by
    intro es hes
    induction es with
    | nil => rfl
    | cons e es ih =>
      obtain ⟨hhead, htail⟩ := List.pairwise_cons.1 hes
      by_cases he : e.1 = k
      · subst he
        have hnone : lookupEntry e.1 (es.filter fun e => p e.1 e.2) = none :=
          lookupEntry_eq_none fun x hx => hhead x (List.mem_filter.1 hx).1
        cases hp : p e.1 e.2 <;> simp [lookupEntry, hp, hnone, Option.filter]
      · cases hp : p e.1 e.2 <;> simp [lookupEntry, hp, he, ih htail]
  exact h t.entries t.inOrder

theorem nodup_keys (t : Table α) : t.keys.Nodup :=
  List.pairwise_map.2 (t.inOrder.imp fun {_ _} h he => by simp [he] at h)

theorem mem_keys {t : Table α} {k : String} : k ∈ t.keys ↔ t.contains k = true := by
  constructor
  · intro h
    obtain ⟨e, he, rfl⟩ := List.mem_map.1 h
    simp [contains, get?_eq_some_iff.2 (show (e.1, e.2) ∈ t.entries from he)]
  · intro h
    obtain ⟨v, hv⟩ := Option.isSome_iff_exists.1 h
    exact List.mem_map.2 ⟨(k, v), get?_eq_some_iff.1 hv, rfl⟩

end Table

abbrev KeySet := Table Unit

/-- Text under text: labels and event metadata. -/
abbrev Labels := Table String

end SessionWatch
