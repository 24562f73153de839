import SessionWatch.Proofs.Stores
import SessionWatch.Proofs.Times

/-!
What the steps of the two informers touch. In a store one informer works on the streams and the other
on the strings and sets; in the cache each has its own keys, but for the time of a node, which one
informer sets and the other looks up. All other steps of the two commute.
-/

namespace SessionWatch

open Session

/-- Two worlds with the same times, and with stores in memory that hold the same. -/
structure World.Alike (w v : World) : Prop where
  cache : w.cache = v.cache
  backends : Storage.Beside Storage.Backend.Alike w.backends v.backends

def World.under (w : World) (c : Conditions) (s : Step) : World × Option s.Answer :=
  (w.facing c s).perform s

theorem Scene.perform_eq (w : World) (ω : Weather) (s : Step) :
    Scene.perform ⟨w, ω⟩ s =
      (⟨(w.under (ω 0) s).1, fun n => ω (n + 1)⟩, (w.under (ω 0) s).2) := rfl

theorem Plan.play_step_of_under {α : Type} {s : Step} {next : s.Answer → Plan α} {w : World}
    {ω : Weather} {x : s.Answer} (h : (w.under (ω 0) s).2 = some x) :
    (step s next).play ⟨w, ω⟩ =
      (next x).play ⟨(w.under (ω 0) s).1, fun n => ω (n + 1)⟩ := by
  rw [play_step, Scene.perform_eq, h]

namespace Step

def onCache : Step → Table Int64 → Table Int64
  | .remember key t, m => m.insert key t
  | .forget key, m => m.erase key
  | _, m => m

def onBackend (c : Conditions) (k : ℕ) : Step → Storage.Backend → Storage.Backend
  | .exchange i r, b => if i = k then (b.asked i c r).1 else b
  | _, b => b

theorem onBackend_alike {c : Conditions} {b b' : Storage.Backend} (s : Step) (k : ℕ)
    (h : b.Alike b') : (s.onBackend c k b).Alike (s.onBackend c k b') := by
  cases s with
  | exchange i r =>
    simp only [onBackend]
    split
    · exact (h.asked i c r).2
    · exact h
  | _ => exact h

/-- Answers that are the same; stamps need not be, as nobody reads them. -/
def Same : (s : Step) → Option s.Answer → Option s.Answer → Prop
  | .stamp, x, y => x.isSome = y.isSome
  | _, x, y => x = y

end Step

namespace World

variable {w v : World}

@[simp] theorem cache_under (w : World) (c : Conditions) (s : Step) :
    (w.under c s).1.cache = s.onCache w.cache := by
  cases s with
  | exchange i r =>
    simp only [under, perform, exchange, Step.onCache]
    split <;> rfl
  | _ => rfl

theorem under_exchange (w : World) (c : Conditions) (i : ℕ) (r : Storage.Request) :
    w.under c (.exchange i r) =
      match w.backends[i]? with
      | none => ({ w with clock := c.clock }, some (.error (.of (.storage .noBackend))))
      | some b =>
        ({ w with clock := c.clock, backends := w.backends.modify i fun b => (b.asked i c r).1 },
          (b.asked i c r).2) := by
  have hat : (w.backends.modify i (·.refusing (c.refused i)))[i]? =
      w.backends[i]?.map (·.refusing (c.refused i)) := by simp
  simp only [under, facing, perform, exchange, hat]
  cases hi : w.backends[i]? with
  | none =>
    have hlength : w.backends.length ≤ i := List.getElem?_eq_none_iff.1 hi
    simp [List.modify_eq_self hlength]
  | some b =>
    have hset : (w.backends.modify i (·.refusing (c.refused i))).set i (b.asked i c r).1 =
        w.backends.modify i fun b => (b.asked i c r).1 := by
      refine List.ext_getElem? fun k => ?_
      by_cases hk : i = k
      · subst hk
        obtain ⟨hlt, rfl⟩ := List.getElem?_eq_some_iff.1 hi
        simp [hlt]
      · simp [hk]
    exact Prod.ext (congrArg (fun bs => { w with clock := c.clock, backends := bs }) hset) rfl

@[simp] theorem backends_under (w : World) (c : Conditions) (s : Step) (k : ℕ) :
    (w.under c s).1.backends[k]? = w.backends[k]?.map (s.onBackend c k) := by
  cases s with
  | exchange i r =>
    rw [under_exchange]
    by_cases hk : i = k
    · subst hk
      cases hi : w.backends[i]? with
      | none => simp [hi]
      | some b => simp [hi, Step.onBackend]
    · have hkept : Step.onBackend c k (.exchange i r) = fun b => b := funext fun b => if_neg hk
      rw [hkept, Option.map_id']
      cases w.backends[i]? with
      | none => rfl
      | some b => simp [hk]
  | _ => exact Option.map_id'.symm

theorem beside_under {R S : Storage.Backend → Storage.Backend → Prop} {s t : Step}
    {c d : Conditions} (h : Storage.Beside R w.backends v.backends)
    (hRS : ∀ i b b', R b b' → S (s.onBackend c i b) (t.onBackend d i b')) :
    Storage.Beside S (w.under c s).1.backends (v.under d t).1.backends :=
  h.map (w.backends_under c s) (v.backends_under d t) hRS

/-- Steps in worlds that are alike are answered the same and leave worlds that are alike. -/
theorem Alike.under (h : w.Alike v) (c : Conditions) (s : Step) :
    s.Same (w.under c s).2 (v.under c s).2 ∧ (w.under c s).1.Alike (v.under c s).1 := by
  refine ⟨?_, by simp [h.cache], beside_under h.backends fun i b b' hb => s.onBackend_alike i hb⟩
  cases s with
  | exchange i r =>
    rw [under_exchange, under_exchange]
    rcases h.backends.at_position i with ⟨hw, hv⟩ | ⟨b, b', hw, hv, hb⟩
    · rw [hw, hv]
      rfl
    · rw [hw, hv]
      exact (hb.asked i c r).1
  | consult key => exact congrArg (fun m => some (Table.get? m key)) h.cache
  | forget key => exact congrArg (fun m => some (Table.get? m key)) h.cache
  | _ => rfl

theorem Alike.symm (h : w.Alike v) : v.Alike w :=
  ⟨h.cache.symm, h.backends.symm fun _ _ hb => hb.symm⟩

theorem Alike.trans {u : World} (h : w.Alike v) (h' : v.Alike u) : w.Alike u :=
  ⟨h.cache.trans h'.cache, h.backends.trans h'.backends fun _ _ _ hb hb' => hb.trans hb'⟩

def InMemory (w : World) : Prop := ∀ b ∈ w.backends, ∃ m, b = .memory m

theorem InMemory.alike (h : w.InMemory) : w.Alike w := by
  refine ⟨rfl, .of_self fun b hb => ?_⟩
  obtain ⟨m, rfl⟩ := h b hb
  exact .memory (.refl m)

end World

/-! ### Which steps commute -/

namespace Step

/-- Steps of an informer that touch nothing that the other one touches, or only what it writes. -/
inductive Light : Resource → Step → Prop
  | stamp (r : Resource) : Light r .stamp
  | note (r : Resource) (n : Note) : Light r (.note n)
  | append {i : ℕ} {r : Storage.Request} : r.leavesKeys = true → Light .pods (.exchange i r)
  | consult (s : String) : Light .pods (.consult (podKey s))
  | remember (s : String) (t : Int64) : Light .pods (.remember (podKey s) t)
  | forget (s : String) : Light .pods (.forget (podKey s))
  | index {i : ℕ} {r : Storage.Request} : r.leavesStreams = true → Light .nodes (.exchange i r)

/-- Where the time of a node is set by one informer and looked up by the other. -/
inductive Crucial : Resource → Step → Prop
  | consult (n : String) : Crucial .pods (.consult (nodeKey n))
  | remember (n : String) (t : Int64) : Crucial .nodes (.remember (nodeKey n) t)

/-- Two steps in a world that come to the same in either order. -/
structure Commute (s t : Step) (c d : Conditions) (w : World) : Prop where
  left : s.Same ((w.under d t).1.under c s).2 (w.under c s).2
  right : t.Same ((w.under c s).1.under d t).2 (w.under d t).2
  world : ((w.under c s).1.under d t).1.Alike ((w.under d t).1.under c s).1

theorem Commute.symm {s t : Step} {c d : Conditions} {w : World} (h : s.Commute t c d w) :
    t.Commute s d c w :=
  ⟨h.right, h.left, h.world.symm⟩

theorem same_after {s t : Step} {c d : Conditions} {w : World}
    (hconsult : ∀ key, s = .consult key ∨ s = .forget key →
      (t.onCache w.cache).get? key = w.cache.get? key)
    (hexchange : ∀ i r b, s = .exchange i r → w.backends[i]? = some b →
      ((t.onBackend d i b).asked i c r).2 = (b.asked i c r).2) :
    s.Same ((w.under d t).1.under c s).2 (w.under c s).2 := by
  cases s with
  | exchange i r =>
    rw [World.under_exchange, World.under_exchange, World.backends_under]
    cases hi : w.backends[i]? with
    | none => rfl
    | some b => exact hexchange i r b rfl hi
  | consult key =>
    have hkept := hconsult key (.inl rfl)
    rw [← World.cache_under w d t] at hkept
    exact congrArg some hkept
  | forget key =>
    have hkept := hconsult key (.inr rfl)
    rw [← World.cache_under w d t] at hkept
    exact congrArg some hkept
  | _ => rfl

theorem commute_of {s t : Step} {c d : Conditions} {w : World} (hw : w.Alike w)
    (hleft : s.Same ((w.under d t).1.under c s).2 (w.under c s).2)
    (hright : t.Same ((w.under c s).1.under d t).2 (w.under d t).2)
    (hcache : t.onCache (s.onCache w.cache) = s.onCache (t.onCache w.cache))
    (hbackend : ∀ k b, b.Alike b →
      (t.onBackend d k (s.onBackend c k b)).Alike (s.onBackend c k (t.onBackend d k b))) :
    s.Commute t c d w := by
  refine ⟨hleft, hright, by simpa using hcache, .of_positions fun k => ?_⟩
  rcases hw.backends.at_position k with ⟨hk, -⟩ | ⟨b, b', hk, -, hb⟩
  · exact .inl ⟨by simp [hk], by simp [hk]⟩
  · exact .inr ⟨_, _, by simp [hk], by simp [hk], hbackend k b (hb.trans hb.symm)⟩

theorem commute_exchange {i j : ℕ} {r q : Storage.Request} {c d : Conditions} {w : World}
    (hw : w.Alike w) (hr : r.leavesKeys = true) (hq : q.leavesStreams = true) :
    (exchange i r).Commute (.exchange j q) c d w := by
  have hself : ∀ (k : ℕ) b, w.backends[k]? = some b → b.Alike b := by
    intro k b hk
    rcases hw.backends.at_position k with ⟨hnone, -⟩ | ⟨b₁, b₂, hb₁, -, hb⟩
    · rw [hk] at hnone
      cases hnone
    · obtain rfl : b = b₁ := Option.some.inj (hk.symm.trans hb₁)
      exact hb.trans hb.symm
  refine commute_of hw (same_after (by simp) ?_) (same_after (by simp) ?_) rfl fun k b hb => ?_
  · rintro i' r' b ⟨⟩ hi
    by_cases hij : j = i
    · subst hij
      simpa [onBackend] using (Storage.Backend.asked_comm (hself _ _ hi) j j c d hr hq).1
    · simp [onBackend, hij]
  · rintro j' q' b ⟨⟩ hj
    by_cases hij : i = j
    · subst hij
      simpa [onBackend] using (Storage.Backend.asked_comm (hself _ _ hj) i i c d hr hq).2.1
    · simp [onBackend, hij]
  · by_cases hik : i = k
    · by_cases hjk : j = k
      · simpa [onBackend, hik, hjk] using (Storage.Backend.asked_comm hb k k c d hr hq).2.2
      · simpa [onBackend, hik, hjk] using (hb.asked k c r).2
    · by_cases hjk : j = k
      · simpa [onBackend, hik, hjk] using (hb.asked k d q).2
      · simpa [onBackend, hik, hjk] using hb

theorem commute_times {s t : Step} {c d : Conditions} {w : World} (hw : w.Alike w)
    (hs : ∀ key, s = .consult key ∨ s = .forget key → (t.onCache w.cache).get? key = w.cache.get? key)
    (ht : ∀ key, t = .consult key ∨ t = .forget key → (s.onCache w.cache).get? key = w.cache.get? key)
    (hcache : t.onCache (s.onCache w.cache) = s.onCache (t.onCache w.cache))
    (hbackend : ∀ k b, s.onBackend c k b = b) (hs' : ∀ i r, s ≠ .exchange i r) :
    s.Commute t c d w := by
  refine commute_of hw (same_after hs fun i r b hexchange _ => absurd hexchange (hs' i r))
    (same_after ht fun i r b _ _ => by rw [hbackend]) hcache fun k b hb => ?_
  have hkept := t.onBackend_alike (c := d) k hb
  simpa [hbackend] using hkept

theorem commute_remember {s : Step} {c d : Conditions} {w : World} (hw : w.Alike w)
    (hs : s.Light .pods) (n : String) (t : Int64) :
    s.Commute (.remember (nodeKey n) t) c d w := by
  have hne : ∀ sid, nodeKey n ≠ podKey sid := fun sid => nodeKey_ne_podKey n sid
  cases hs with
  | append hr =>
    refine Commute.symm (commute_times hw ?_ ?_ rfl (fun _ _ => rfl) ?_) <;> simp [onCache]
  | remember sid time =>
    refine commute_times hw ?_ ?_ (Table.ext fun k => ?_) (fun _ _ => rfl) ?_
    case refine_3 =>
      by_cases hk : nodeKey n = k
      · subst hk
        simp [onCache, (hne sid).symm]
      · simp [onCache, hk]
    all_goals simp
  | forget sid =>
    refine commute_times hw ?_ ?_ (Table.ext fun k => ?_) (fun _ _ => rfl) ?_
    case refine_3 =>
      by_cases hk : nodeKey n = k
      · subst hk
        simp [onCache, (hne sid).symm]
      · simp [onCache, hk]
    all_goals simp [onCache, hne]
  | consult sid =>
    refine commute_times hw ?_ ?_ rfl (fun _ _ => rfl) ?_ <;> simp [onCache, hne]
  | _ => refine commute_times hw ?_ ?_ rfl (fun _ _ => rfl) ?_ <;> simp

theorem commute_light {s t : Step} {c d : Conditions} {w : World} (hw : w.Alike w)
    (hs : s.Light .pods ∨ s.Crucial .pods) (ht : t.Light .nodes) : s.Commute t c d w := by
  cases ht with
  | index hq =>
    rcases hs with hs | hs <;> cases hs
    case inl.append hr => exact commute_exchange hw hr hq
    all_goals refine commute_times hw ?_ ?_ rfl (fun _ _ => rfl) ?_ <;> simp [onCache]
  | _ => refine Commute.symm (commute_times hw ?_ ?_ rfl (fun _ _ => rfl) ?_) <;> simp [onCache]

/-- A light step of one informer commutes with every step of the other. -/
theorem Light.commute {r u : Resource} (hne : r ≠ u) {s t : Step} (hs : s.Light r)
    (ht : t.Light u ∨ t.Crucial u) {w : World} (hw : w.Alike w) (c d : Conditions) :
    s.Commute t c d w := by
  cases r with
  | nodes =>
    cases u with
    | nodes => exact absurd rfl hne
    | pods => exact (commute_light hw ht hs).symm
  | pods =>
    cases u with
    | pods => exact absurd rfl hne
    | nodes =>
      rcases ht with ht | ht
      · exact commute_light hw (.inl hs) ht
      · cases ht with
        | remember n time => exact commute_remember hw hs n time

end Step

end SessionWatch
