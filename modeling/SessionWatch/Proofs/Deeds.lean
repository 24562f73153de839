import SessionWatch.Proofs.FanOut

/-!
What a plan does in a scene: the steps that it takes there, each with the answer that it is given.
A plan thrives where it comes to an end and every backend that it asks answers in success.
-/

namespace SessionWatch

/-- No backend fails in it. -/
def Deed.Succeeds : Deed → Prop
  | ⟨.exchange _ _, x⟩ => Storage.isFailure x = false
  | _ => True

instance : DecidablePred Deed.Succeeds
  | ⟨.exchange _ _, x⟩ => inferInstanceAs (Decidable (Storage.isFailure x = false))
  | ⟨.consult _, _⟩ | ⟨.remember .., _⟩ | ⟨.forget _, _⟩ | ⟨.stamp, _⟩ | ⟨.note _, _⟩ => .isTrue trivial

namespace Plan

variable {α β : Type} {p : Plan α} {c : Scene}

def deeds : Plan α → Scene → List Deed
  | .done _, _ => []
  | .step s next, c =>
    match c.perform s with
    | (c, some x) => ⟨s, x⟩ :: (next x).deeds c
    | (_, none) => []

theorem deeds_step (s : Step) (next : s.Answer → Plan α) (c : Scene) :
    (step s next).deeds c =
      match c.perform s with
      | (c, some x) => ⟨s, x⟩ :: (next x).deeds c
      | (_, none) => [] := by
  simp only [deeds]

theorem deeds_bind (p : Plan α) (f : α → Plan β) (c : Scene) :
    (p.bind f).deeds c =
      p.deeds c ++
        match p.play c with
        | (c, some a) => (f a).deeds c
        | (_, none) => [] := by
  induction p generalizing c with
  | done a => rfl
  | step s next ih =>
    rw [bind_step, deeds_step, deeds_step, play_step]
    rcases c.perform s with ⟨c', _ | x⟩
    · rfl
    · exact congrArg (List.cons _) (ih x c')

theorem deeds_bind_of_some {c' : Scene} {a : α} (h : p.play c = (c', some a)) (f : α → Plan β) :
    (p.bind f).deeds c = p.deeds c ++ (f a).deeds c' := by
  rw [deeds_bind, h]

theorem deeds_bind_of_none (h : (p.play c).2 = none) (f : α → Plan β) :
    (p.bind f).deeds c = p.deeds c := by
  rw [deeds_bind]
  rcases hp : p.play c with ⟨c', _ | a⟩
  · exact List.append_nil _
  · rw [hp] at h
    cases h

theorem deeds_bind_done (p : Plan α) (f : α → β) (c : Scene) :
    (p.bind fun a => .done (f a)).deeds c = p.deeds c := by
  rcases hp : p.play c with ⟨c', _ | a⟩
  · exact deeds_bind_of_none (by rw [hp]) _
  · rw [deeds_bind_of_some hp]
    exact List.append_nil _

theorem leads_of_play {c' : Scene} {a : α} (h : p.play c = (c', some a)) :
    p.Leads (p.deeds c) a := by
  induction p generalizing c with
  | done b =>
    obtain rfl : b = a := by simpa using congrArg Prod.snd h
    exact .done b
  | step s next ih =>
    rw [play_step] at h
    rw [deeds_step]
    rcases hs : c.perform s with ⟨c₁, _ | x⟩
    · rw [hs] at h
      cases congrArg Prod.snd h
    · rw [hs] at h
      exact .step (ih x h)

/-- The plan comes to an end, and no backend that it asks fails. -/
structure Thrives (p : Plan α) (c : Scene) : Prop where
  ends : (p.play c).2.isSome
  succeeds : ∀ d ∈ p.deeds c, d.Succeeds

namespace Thrives

theorem play (h : p.Thrives c) : ∃ c' a, p.play c = (c', some a) := by
  obtain ⟨a, ha⟩ := Option.isSome_iff_exists.1 h.ends
  exact ⟨_, a, Prod.ext rfl ha⟩

theorem bind {f : α → Plan β} (h : (p.bind f).Thrives c) :
    p.Thrives c ∧ ∃ c' a, p.play c = (c', some a) ∧ (f a).Thrives c' := by
  obtain ⟨hends, hsucceeds⟩ := h
  rw [play_bind] at hends
  rw [deeds_bind] at hsucceeds
  rcases hp : p.play c with ⟨c', _ | a⟩
  · rw [hp] at hends
    cases hends
  · rw [hp] at hends hsucceeds
    exact ⟨⟨by rw [hp]; rfl, fun d hd => hsucceeds d (List.mem_append_left _ hd)⟩, c', a, rfl,
      hends, fun d hd => hsucceeds d (List.mem_append_right _ hd)⟩

theorem step {s : Step} {next : s.Answer → Plan α} (h : (Plan.step s next).Thrives c) :
    ∃ c' x, c.perform s = (c', some x) ∧ (next x).Thrives c' := by
  obtain ⟨hends, hsucceeds⟩ := h
  rw [play_step] at hends
  rw [deeds_step] at hsucceeds
  rcases hs : c.perform s with ⟨c', _ | x⟩
  · rw [hs] at hends
    cases hends
  · rw [hs] at hends hsucceeds
    exact ⟨c', x, rfl, hends, fun d hd => hsucceeds d (List.mem_cons_of_mem _ hd)⟩

theorem of_perform {s : Step} {next : s.Answer → Plan α} {c' : Scene} {x : s.Answer}
    (h : (Plan.step s next).Thrives c) (hs : c.perform s = (c', some x)) :
    Deed.Succeeds ⟨s, x⟩ ∧ (next x).Thrives c' := by
  obtain ⟨c₁, y, hy, hnext⟩ := h.step
  cases hs.symm.trans hy
  refine ⟨h.succeeds _ ?_, hnext⟩
  rw [deeds_step, hs]
  exact List.mem_cons_self

end Thrives

end Plan

namespace Storage

theorem fanOut_play_of_thrives {n : ℕ} {r : Request} {c : Scene} (hn : 0 < n)
    (h : (fanOut n r).Thrives c) : ∃ c' a, (fanOut n r).play c = (c', some (.ok a)) := by
  obtain ⟨c', x, hplay⟩ := h.play
  obtain ⟨as, hlength, hdeeds, hjudged⟩ := fanOut_leads_iff.1 (Plan.leads_of_play hplay)
  have hok : ∀ y ∈ as, isFailure y = false := by
    intro y hy
    obtain ⟨i, hi, rfl⟩ := List.getElem_of_mem hy
    have hmem : (⟨.exchange i r, as[i]⟩ : Deed) ∈ asking r (List.range n) as := by
      refine List.mem_of_getElem? (i := i) ?_
      simp [asking, ← hlength, hi]
    exact h.succeeds _ (hdeeds ▸ hmem)
  obtain ⟨a, rfl⟩ := hjudged.exists_ok (List.ne_nil_of_length_pos (hlength ▸ hn)) hok
  exact ⟨c', a, hplay⟩

end Storage

end SessionWatch
