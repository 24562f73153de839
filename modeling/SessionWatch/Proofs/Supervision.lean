import Mathlib.Tactic
import SessionWatch.Supervisor

/-!
How a supervision goes. Its state accounts for all that has happened: who is at work, who has ended,
who was joined, and which failure was joined first. So it is over only when every worker was joined,
and it comes to the first failure that was.
-/

namespace SessionWatch

namespace Happening

def ending? (i : ℕ) : Happening → Option Ending
  | .ended j e => if j = i then some e else none
  | _ => none

def joined? : Happening → Option ℕ
  | .joined i => some i
  | _ => none

def isOwn : Happening → Bool
  | .joined _ | .advanced => true
  | _ => false

end Happening

namespace Supervisor

/-- How a worker has ended in the course of a history. -/
def endingIn (hs : List Happening) (i : ℕ) : Option Ending := hs.findSome? (·.ending? i)

def joinsIn (hs : List Happening) : List ℕ := hs.filterMap (·.joined?)

/-- The report of the worker that was joined first of all that failed. -/
def firstFailure (names : List String) (hs : List Happening) : Option Report :=
  ((joinsIn hs).filterMap fun i => (endingIn hs i).bind (·.report? (names.getD i ""))).head?

/-- The failure that was joined first, whether or not it is noted yet. -/
def known (s : Supervisor) : Option Report :=
  match s.stage with
  | .failing r | .noting r => s.failure.or (some r)
  | _ => s.failure

theorem endingIn_concat (hs : List Happening) (h : Happening) (i : ℕ) :
    endingIn (hs ++ [h]) i = (endingIn hs i).or (h.ending? i) := by
  simp [endingIn, List.findSome?_append]

theorem joinsIn_concat (hs : List Happening) (h : Happening) :
    joinsIn (hs ++ [h]) = joinsIn hs ++ h.joined?.toList := by
  rw [joinsIn, List.filterMap_append]
  cases hj : h.joined? <;> simp [joinsIn, hj]

theorem endingIn_concat_of_none {hs : List Happening} {h : Happening} (hh : ∀ i, h.ending? i = none) :
    endingIn (hs ++ [h]) = endingIn hs := by
  funext i
  rw [endingIn_concat, hh, Option.or_none]

theorem joinsIn_concat_of_none {hs : List Happening} {h : Happening} (hh : h.joined? = none) :
    joinsIn (hs ++ [h]) = joinsIn hs := by
  rw [joinsIn_concat, hh, Option.toList_none, List.append_nil]

inductive Moves (s : Supervisor) : Happening → Supervisor → Prop
  | ended {i : ℕ} {e : Ending} : i ∈ s.running →
      Moves s (.ended i e) { s with running := s.running.erase i, ended := s.ended ++ [(i, e)] }
  | cancelled : Moves s .cancelled { s with stopped := true }
  | joined {i : ℕ} {e : Ending} : s.stage = .waiting → s.ended.lookup i = some e →
      Moves s (.joined i) (s.join i e)
  | close : s.stage = .waiting → s.running = [] → s.ended = [] →
      Moves s .advanced { s with stage := .closing }
  | cancel {r : Report} : s.stage = .failing r →
      Moves s .advanced { s with stopped := true, stage := .noting r }
  | note {r : Report} : s.stage = .noting r →
      Moves s .advanced { s with failure := s.failure.or (some r), stage := .waiting }
  | finish : s.stage = .closing →
      Moves s .advanced { s with stopped := true, stage := .returned s.verdict }

theorem moves_of_step? {s t : Supervisor} {h : Happening} (hstep : s.step? h = some t) :
    s.Moves h t := by
  cases h with
  | ended i e =>
    simp only [step?] at hstep
    split at hstep
    · next hi =>
      cases hstep
      exact .ended hi
    · cases hstep
  | cancelled =>
    cases hstep
    exact .cancelled
  | joined i =>
    simp only [step?] at hstep
    split at hstep
    · next hstage =>
      obtain ⟨e, he, rfl⟩ := Option.map_eq_some_iff.1 hstep
      exact .joined hstage he
    · cases hstep
  | advanced =>
    simp only [step?, advance?] at hstep
    split at hstep
    · next hstage =>
      split at hstep
      · next hall =>
        cases hstep
        exact .close hstage hall.1 hall.2
      · cases hstep
    · next hstage =>
      cases hstep
      exact .cancel hstage
    · next hstage =>
      cases hstep
      exact .note hstage
    · next hstage =>
      cases hstep
      exact .finish hstage
    · cases hstep

/-! ### Who is at work and who is not -/

theorem mem_of_lookup {i : ℕ} {e : Ending} {xs : List (ℕ × Ending)} (h : xs.lookup i = some e) :
    (i, e) ∈ xs := by
  obtain ⟨before, after, rfl, -⟩ := List.lookup_eq_some_iff.1 h
  simp

/-- A supervisor keeps track of its workers in the course of a history. -/
structure Tracks (names : List String) (hs : List Happening) (s : Supervisor) : Prop where
  names_eq : s.names = names
  running_nodup : s.running.Nodup
  running : ∀ i, i ∈ s.running ↔ i < names.length ∧ endingIn hs i = none
  ended_nodup : (s.ended.map (·.1)).Nodup
  ended : ∀ i e, (i, e) ∈ s.ended ↔ endingIn hs i = some e ∧ i ∉ joinsIn hs
  known : ∀ i e, endingIn hs i = some e → i < names.length
  joined : ∀ i ∈ joinsIn hs, (endingIn hs i).isSome
  joins_nodup : (joinsIn hs).Nodup

namespace Tracks

variable {names : List String} {hs : List Happening} {s t : Supervisor} {h : Happening}

theorem start (names : List String) : Tracks names [] (start names) where
  names_eq := rfl
  running_nodup := List.nodup_range
  running i := by simp [Supervisor.start, endingIn]
  ended_nodup := List.nodup_nil
  ended i e := by simp [Supervisor.start, endingIn]
  known i e he := by simp [endingIn] at he
  joined i hi := by simp [joinsIn] at hi
  joins_nodup := List.nodup_nil

theorem of_idle (ht : Tracks names hs s) (hending : ∀ i, h.ending? i = none)
    (hjoined : h.joined? = none) (hnames : t.names = s.names) (hrunning : t.running = s.running)
    (hended : t.ended = s.ended) : Tracks names (hs ++ [h]) t := by
  have hendings : endingIn (hs ++ [h]) = endingIn hs := endingIn_concat_of_none hending
  have hjoins : joinsIn (hs ++ [h]) = joinsIn hs := joinsIn_concat_of_none hjoined
  exact
    { names_eq := hnames.trans ht.names_eq
      running_nodup := hrunning ▸ ht.running_nodup
      running := by simpa only [hendings, hrunning] using ht.running
      ended_nodup := hended ▸ ht.ended_nodup
      ended := by simpa only [hendings, hjoins, hended] using ht.ended
      known := by simpa only [hendings] using ht.known
      joined := by simpa only [hendings, hjoins] using ht.joined
      joins_nodup := hjoins ▸ ht.joins_nodup }

theorem not_joined (ht : Tracks names hs s) {i : ℕ} (hi : i ∈ s.running) : i ∉ joinsIn hs := by
  intro hjoined
  have hsome := ht.joined i hjoined
  rw [((ht.running i).1 hi).2] at hsome
  cases hsome

theorem of_ended (ht : Tracks names hs s) {i : ℕ} {e : Ending} (hi : i ∈ s.running) :
    Tracks names (hs ++ [.ended i e])
      { s with running := s.running.erase i, ended := s.ended ++ [(i, e)] } := by
  have hnone : endingIn hs i = none := ((ht.running i).1 hi).2
  have hending : ∀ j, endingIn (hs ++ [.ended i e]) j =
      if i = j then some e else endingIn hs j := by
    intro j
    rw [endingIn_concat, Happening.ending?]
    split
    · next hij => rw [← hij, hnone, Option.none_or]
    · rw [Option.or_none]
  have hjoins : joinsIn (hs ++ [.ended i e]) = joinsIn hs := joinsIn_concat_of_none rfl
  have hfresh : ∀ e', (i, e') ∉ s.ended := fun e' he' => by
    rw [((ht.ended i e').1 he').1] at hnone
    cases hnone
  refine ⟨ht.names_eq, ht.running_nodup.erase i, fun j => ?_, ?_, fun j e' => ?_, fun j e' => ?_,
    fun j hj => ?_, hjoins ▸ ht.joins_nodup⟩
  · rw [ht.running_nodup.mem_erase_iff, ht.running j, hending]
    by_cases hij : i = j
    · simp [hij]
    · simp [hij, Ne.symm hij]
  · rw [List.map_append, List.nodup_append]
    refine ⟨ht.ended_nodup, List.nodup_singleton i, fun j hj k hk => ?_⟩
    obtain ⟨x, hx, rfl⟩ := List.mem_map.1 hj
    obtain rfl : k = i := by simpa using hk
    exact fun hxk => hfresh x.2 (hxk ▸ hx)
  · rw [hending, hjoins, List.mem_append, ht.ended j e']
    by_cases hij : i = j
    · subst hij
      have hnot := ht.not_joined hi
      simp [hnone, hnot, eq_comm]
    · simp [hij, Ne.symm hij]
  · rw [hending]
    split
    · next hij => exact fun _ => hij ▸ ((ht.running i).1 hi).1
    · exact ht.known j e'
  · rw [hjoins] at hj
    rw [hending]
    split
    · rfl
    · exact ht.joined j hj

theorem of_joined (ht : Tracks names hs s) {i : ℕ} {e : Ending} (hi : s.ended.lookup i = some e) :
    Tracks names (hs ++ [.joined i]) (s.join i e) := by
  obtain ⟨hsome, hnew⟩ := (ht.ended i e).1 (mem_of_lookup hi)
  have hendings : endingIn (hs ++ [.joined i]) = endingIn hs := endingIn_concat_of_none fun _ => rfl
  have hjoins : joinsIn (hs ++ [.joined i]) = joinsIn hs ++ [i] := joinsIn_concat hs _
  refine ⟨ht.names_eq, ht.running_nodup, fun j => ?_, ?_, fun j e' => ?_,
    by simpa only [hendings] using ht.known, fun j hj => ?_, ?_⟩
  · rw [hendings]
    exact ht.running j
  · exact ht.ended_nodup.sublist (List.filter_sublist.map _)
  · rw [hendings, hjoins]
    show (j, e') ∈ s.ended.filter _ ↔ _
    rw [List.mem_filter, ht.ended j e']
    simp [and_assoc]
  · rw [hendings]
    rw [hjoins, List.mem_append, List.mem_singleton] at hj
    rcases hj with hj | rfl
    · exact ht.joined j hj
    · rw [hsome]
      rfl
  · rw [hjoins, List.nodup_append]
    refine ⟨ht.joins_nodup, List.nodup_singleton i, fun j hj k hk => ?_⟩
    obtain rfl : k = i := by simpa using hk
    exact fun hjk => hnew (hjk ▸ hj)

theorem step (ht : Tracks names hs s) (hmoves : s.Moves h t) : Tracks names (hs ++ [h]) t := by
  cases hmoves with
  | ended hi => exact ht.of_ended hi
  | joined _ hi => exact ht.of_joined hi
  | _ => exact ht.of_idle (fun _ => rfl) rfl rfl rfl rfl

end Tracks

/-! ### What a supervisor knows of failures -/

section

variable {names : List String} {hs : List Happening}

theorem firstFailure_ended {i : ℕ} (hi : i ∉ joinsIn hs) (e : Ending) :
    firstFailure names (hs ++ [.ended i e]) = firstFailure names hs := by
  have hjoins : joinsIn (hs ++ [.ended i e]) = joinsIn hs := joinsIn_concat_of_none rfl
  rw [firstFailure, hjoins, firstFailure]
  refine congrArg _ (List.filterMap_congr fun j hj => ?_)
  have hij : i ≠ j := fun hij => hi (hij ▸ hj)
  rw [endingIn_concat, Happening.ending?, if_neg hij, Option.or_none]

theorem firstFailure_joined {i : ℕ} {e : Ending} (hi : endingIn hs i = some e) :
    firstFailure names (hs ++ [.joined i]) =
      (firstFailure names hs).or (e.report? (names.getD i "")) := by
  have hjoins : joinsIn (hs ++ [.joined i]) = joinsIn hs ++ [i] := joinsIn_concat hs _
  have hendings : endingIn (hs ++ [.joined i]) = endingIn hs := endingIn_concat_of_none fun _ => rfl
  rw [firstFailure, hjoins, hendings, List.filterMap_append, List.head?_append, firstFailure]
  refine congrArg _ ?_
  rw [List.head?_filterMap, List.findSome?_singleton, hi]
  rfl

theorem firstFailure_idle {h : Happening} (hending : ∀ i, h.ending? i = none)
    (hjoined : h.joined? = none) : firstFailure names (hs ++ [h]) = firstFailure names hs := by
  rw [firstFailure, joinsIn_concat_of_none hjoined, endingIn_concat_of_none hending, firstFailure]

end

/-- A supervisor heeds what has happened: it knows the failure that was joined first, has cancelled
its workers before it takes note of a failure, and returns only when nobody is left. -/
structure Heeds (names : List String) (hs : List Happening) (s : Supervisor) : Prop where
  failure : firstFailure names hs = s.known
  noted : s.failure.isSome → s.stopped = true
  noting : ∀ r, s.stage = .noting r → s.stopped = true
  returned : ∀ x, s.stage = .returned x → s.stopped = true ∧ x = s.verdict
  alone : s.stage = .closing ∨ (∃ x, s.stage = .returned x) → s.running = [] ∧ s.ended = []
  reason : s.stopped = true → .cancelled ∈ hs ∨ s.known.isSome ∨ ∃ x, s.stage = .returned x

theorem known_of_waiting {s : Supervisor} (h : s.stage = .waiting) : s.known = s.failure := by
  rw [known, h]

theorem known_of_failing {s : Supervisor} {r : Report} (h : s.stage = .failing r) :
    s.known = s.failure.or (some r) := by
  rw [known, h]

theorem known_of_noting {s : Supervisor} {r : Report} (h : s.stage = .noting r) :
    s.known = s.failure.or (some r) := by
  rw [known, h]

theorem known_of_closing {s : Supervisor} (h : s.stage = .closing) : s.known = s.failure := by
  rw [known, h]

theorem known_join {s : Supervisor} (h : s.stage = .waiting) (i : ℕ) (e : Ending) :
    (s.join i e).known = s.known.or (e.report? (s.nameOf i)) := by
  rw [known_of_waiting h]
  simp only [known, join]
  cases e.report? (s.nameOf i) with
  | none => rw [Option.or_none]
  | some r => rfl

namespace Heeds

variable {names : List String} {hs : List Happening} {s t : Supervisor} {h : Happening}

theorem start (names : List String) : Heeds names [] (start names) where
  failure := rfl
  noted h := by cases h
  noting r h := by cases h
  returned x h := by cases h
  alone h := by rcases h with h | ⟨x, h⟩ <;> cases h
  reason h := by cases h

theorem of_ended (hh : Heeds names hs s) (ht : Tracks names hs s) {i : ℕ} {e : Ending}
    (hi : i ∈ s.running) : Heeds names (hs ++ [.ended i e])
      { s with running := s.running.erase i, ended := s.ended ++ [(i, e)] } where
  failure := (firstFailure_ended (ht.not_joined hi) e).trans hh.failure
  noted := hh.noted
  noting := hh.noting
  returned := hh.returned
  alone hstage := by
    rw [(hh.alone hstage).1] at hi
    cases hi
  reason hstopped := (hh.reason hstopped).imp_left (List.mem_append_left _)

theorem of_joined (hh : Heeds names hs s) (ht : Tracks names hs s) {i : ℕ} {e : Ending}
    (hstage : s.stage = .waiting) (hi : endingIn hs i = some e) :
    Heeds names (hs ++ [.joined i]) (s.join i e) := by
  have hother : ∀ stage, (s.join i e).stage = stage → stage = .waiting ∨ ∃ r, stage = .failing r := by
    rintro _ rfl
    simp only [join]
    cases e.report? (s.nameOf i) with
    | none => exact .inl rfl
    | some r => exact .inr ⟨r, rfl⟩
  refine ⟨?_, hh.noted, fun r hr => ?_, fun x hx => ?_, fun hleft => ?_, fun hstopped => ?_⟩
  · rw [firstFailure_joined hi, hh.failure, known_join hstage, nameOf, ht.names_eq]
  · rcases hother _ hr with h | ⟨r', h⟩ <;> cases h
  · rcases hother _ hx with h | ⟨r', h⟩ <;> cases h
  · rcases hleft with hleft | ⟨x, hleft⟩ <;> rcases hother _ hleft with h | ⟨r', h⟩ <;> cases h
  · rcases hh.reason hstopped with hcancelled | hknown | ⟨x, hx⟩
    · exact .inl (List.mem_append_left _ hcancelled)
    · refine .inr (.inl ?_)
      rw [known_join hstage, Option.isSome_or, hknown, Bool.true_or]
    · rw [hstage] at hx
      cases hx

theorem step (hh : Heeds names hs s) (ht : Tracks names hs s) (hmoves : s.Moves h t) :
    Heeds names (hs ++ [h]) t := by
  have hidle : h = .cancelled ∨ h = .advanced →
      firstFailure names (hs ++ [h]) = firstFailure names hs := by
    rintro (rfl | rfl) <;> exact firstFailure_idle (fun _ => rfl) rfl
  cases hmoves with
  | ended hi => exact hh.of_ended ht hi
  | joined hstage hi => exact hh.of_joined ht hstage ((ht.ended _ _).1 (mem_of_lookup hi)).1
  | cancelled =>
    exact
      { failure := (hidle (.inl rfl)).trans hh.failure
        noted := fun _ => rfl
        noting := fun _ _ => rfl
        returned := fun x hx => ⟨rfl, (hh.returned x hx).2⟩
        alone := hh.alone
        reason := fun _ => .inl (by simp) }
  | close hstage hrunning hended =>
    refine ⟨(hidle (.inr rfl)).trans (hh.failure.trans (known_of_waiting hstage)), hh.noted, nofun,
      nofun, fun _ => ⟨hrunning, hended⟩, fun hstopped => ?_⟩
    rcases hh.reason hstopped with hcancelled | hknown | ⟨x, hx⟩
    · exact .inl (List.mem_append_left _ hcancelled)
    · exact .inr (.inl (known_of_waiting hstage ▸ hknown))
    · rw [hstage] at hx
      cases hx
  | cancel hstage =>
    have hknown := known_of_failing hstage
    refine ⟨(hidle (.inr rfl)).trans (hh.failure.trans hknown), fun _ => rfl, fun _ _ => rfl, nofun,
      ?_, fun _ => .inr (.inl (by simp [known]))⟩
    rintro (h | ⟨x, h⟩) <;> cases h
  | note hstage =>
    have hstopped := hh.noting _ hstage
    refine ⟨(hidle (.inr rfl)).trans (hh.failure.trans (known_of_noting hstage)), fun _ => hstopped,
      nofun, nofun, ?_, fun _ => .inr (.inl (by simp [known]))⟩
    rintro (h | ⟨x, h⟩) <;> cases h
  | finish hstage =>
    refine ⟨(hidle (.inr rfl)).trans (hh.failure.trans (known_of_closing hstage)), fun _ => rfl,
      nofun, ?_, fun _ => hh.alone (.inl hstage), fun _ => .inr (.inr ⟨_, rfl⟩)⟩
    rintro x ⟨⟩
    exact ⟨rfl, rfl⟩

end Heeds

/-- In the course of every history a supervisor keeps track of its workers and heeds their failures. -/
theorem accounts_of_run? {names : List String} {hs : List Happening} {s : Supervisor}
    (hrun : (start names).run? hs = some s) : Tracks names hs s ∧ Heeds names hs s := by
  induction hs using List.reverseRecOn generalizing s with
  | nil =>
    cases hrun
    exact ⟨.start names, .start names⟩
  | append_singleton hs h ih =>
    rw [run?_append] at hrun
    obtain ⟨v, hv, hlast⟩ := Option.bind_eq_some_iff.1 hrun
    rw [run?_cons] at hlast
    obtain ⟨t, hstep, hnil⟩ := Option.bind_eq_some_iff.1 hlast
    cases hnil
    obtain ⟨ht, hh⟩ := ih hv
    exact ⟨ht.step (moves_of_step? hstep), hh.step ht (moves_of_step? hstep)⟩

/-! ### Whom the outcome blames -/

/-- The report is that of the worker that was joined first of all that did not end well: its own one
below its name, or else that it panicked. -/
def Blames (names : List String) (hs : List Happening) (r : Report) : Prop :=
  ∃ earlier i later, joinsIn hs = earlier ++ i :: later ∧
    (∀ j ∈ earlier, endingIn hs j = some .done) ∧
    ((∃ own, endingIn hs i = some (.failed own) ∧
        r = own.because (.worker (.failed (names.getD i "")))) ∨
      endingIn hs i = some .panicked ∧ r = .of (.worker (.panicked (names.getD i ""))))

theorem report?_eq_none_iff {e : Ending} {name : String} : e.report? name = none ↔ e = .done := by
  cases e <;> simp [Ending.report?]

theorem firstFailure_eq_some_iff {names : List String} {hs : List Happening} {s : Supervisor}
    (ht : Tracks names hs s) {r : Report} : firstFailure names hs = some r ↔ Blames names hs r := by
  have hdone : ∀ i ∈ joinsIn hs,
      (endingIn hs i).bind (·.report? (names.getD i "")) = none ↔ endingIn hs i = some .done := by
    intro i hi
    obtain ⟨e, he⟩ := Option.isSome_iff_exists.1 (ht.joined i hi)
    simp only [he, Option.bind_some, report?_eq_none_iff, Option.some.injEq]
  have hreport : ∀ i, (endingIn hs i).bind (·.report? (names.getD i "")) = some r ↔
      (∃ own, endingIn hs i = some (.failed own) ∧
        r = own.because (.worker (.failed (names.getD i "")))) ∨
      endingIn hs i = some .panicked ∧ r = .of (.worker (.panicked (names.getD i ""))) := by
    intro i
    rcases endingIn hs i with _ | _ | own | _ <;> simp [Ending.report?, eq_comm]
  rw [firstFailure, List.head?_filterMap, List.findSome?_eq_some_iff]
  constructor
  · rintro ⟨earlier, i, later, hjoins, hi, hearlier⟩
    refine ⟨earlier, i, later, hjoins, fun j hj => ?_, (hreport i).1 hi⟩
    exact (hdone j (by simp [hjoins, hj])).1 (hearlier j hj)
  · rintro ⟨earlier, i, later, hjoins, hearlier, hi⟩
    refine ⟨earlier, i, later, hjoins, (hreport i).2 hi, fun j hj => ?_⟩
    exact (hdone j (by simp [hjoins, hj])).2 (hearlier j hj)

theorem firstFailure_eq_none_iff {names : List String} {hs : List Happening} {s : Supervisor}
    (ht : Tracks names hs s) :
    firstFailure names hs = none ↔ ∀ i ∈ joinsIn hs, endingIn hs i = some .done := by
  rw [firstFailure, List.head?_filterMap, List.findSome?_eq_none_iff]
  refine forall₂_congr fun i hi => ?_
  obtain ⟨e, he⟩ := Option.isSome_iff_exists.1 (ht.joined i hi)
  simp only [he, Option.bind_some, report?_eq_none_iff, Option.some.injEq]

/-! ### Once all workers have ended -/

/-- A failure is dealt with before the next worker is waited for, and changes nothing in who has
ended. -/
theorem exists_waiting {s : Supervisor} (hstage : s.stage ≠ .closing)
    (hreturned : ∀ x, s.stage ≠ .returned x) :
    ∃ n v, s.run? (List.replicate n .advanced) = some v ∧ v.stage = .waiting ∧
      v.running = s.running ∧ v.ended = s.ended := by
  cases h : s.stage with
  | waiting => exact ⟨0, s, rfl, h, rfl, rfl⟩
  | failing r =>
    refine ⟨2, { s with stopped := true, failure := s.failure.or (some r), stage := .waiting }, ?_,
      rfl, rfl, rfl⟩
    simp [List.replicate, step?, advance?, h]
  | noting r =>
    refine ⟨1, { s with failure := s.failure.or (some r), stage := .waiting }, ?_, rfl, rfl, rfl⟩
    simp [step?, advance?, h]
  | closing => exact absurd h hstage
  | returned x => exact absurd h (hreturned x)

theorem joinsIn_append (hs ks : List Happening) : joinsIn (hs ++ ks) = joinsIn hs ++ joinsIn ks :=
  List.filterMap_append

theorem joinsIn_replicate (n : ℕ) : joinsIn (List.replicate n .advanced) = [] := by
  simp [joinsIn, Happening.joined?]

theorem exists_lookup {i : ℕ} {xs : List (ℕ × Ending)} (hi : i ∈ xs.map (·.1)) :
    ∃ e, xs.lookup i = some e := by
  obtain ⟨x, hx, rfl⟩ := List.mem_map.1 hi
  refine Option.ne_none_iff_exists'.1 fun hnone => ?_
  have hne := List.lookup_eq_none_iff.1 hnone x hx
  simp at hne

theorem returns_of_waiting {order : List ℕ} {s : Supervisor} (hrunning : s.running = [])
    (hnodup : (s.ended.map (·.1)).Nodup) (hstage : s.stage = .waiting)
    (horder : order.Perm (s.ended.map (·.1))) :
    ∃ more t, (∀ h ∈ more, h.isOwn = true) ∧ joinsIn more = order ∧ s.run? more = some t ∧
      t.outcome?.isSome := by
  induction order generalizing s with
  | nil =>
    have hended : s.ended = [] := by simpa using horder
    have hrun : s.run? [.advanced, .advanced] =
        some { s with stopped := true, stage := .returned s.verdict } := by
      simp [step?, advance?, hstage, hrunning, hended, verdict]
    exact ⟨_, _, by simp [Happening.isOwn], rfl, hrun, rfl⟩
  | cons i order ih =>
    obtain ⟨e, he⟩ := exists_lookup (horder.mem_iff.1 List.mem_cons_self)
    have hjoin : s.step? (.joined i) = some (s.join i e) := by simp [step?, hstage, he]
    obtain ⟨n, v, hv, hvstage, hvrunning, hvended⟩ : ∃ n v,
        (s.join i e).run? (List.replicate n .advanced) = some v ∧ v.stage = .waiting ∧
          v.running = s.running ∧ v.ended = s.ended.filter fun x => x.1 ≠ i := by
      refine exists_waiting ?_ fun x => ?_ <;> rw [join] <;> cases e.report? (s.nameOf i) <;> simp
    have hrest : order.Perm (v.ended.map (·.1)) := by
      have hnot : i ∉ order := (List.nodup_cons.1 (horder.nodup_iff.2 hnodup)).1
      have hkeep : order.filter (fun j => decide (j ≠ i)) = order := by
        refine List.filter_eq_self.2 fun j hj => decide_eq_true ?_
        rintro rfl
        exact hnot hj
      have hfilter := horder.filter fun j => decide (j ≠ i)
      rw [List.filter_cons_of_neg (by simp), hkeep, List.filter_map] at hfilter
      rw [hvended]
      exact hfilter
    obtain ⟨more, t, hown, hjoins, ht, hreturns⟩ := ih (hvrunning.trans hrunning)
      (hrest.nodup_iff.1 (List.nodup_cons.1 (horder.nodup_iff.2 hnodup)).2) hvstage hrest
    refine ⟨.joined i :: (List.replicate n .advanced ++ more), t, ?_, ?_, ?_, hreturns⟩
    · simp only [List.mem_cons, List.mem_append, List.mem_replicate]
      rintro h (rfl | ⟨-, rfl⟩ | hh)
      · rfl
      · rfl
      · exact hown h hh
    · show i :: joinsIn (List.replicate n .advanced ++ more) = i :: order
      rw [joinsIn_append, joinsIn_replicate, List.nil_append, hjoins]
    · rw [run?_cons, hjoin, Option.bind_some, run?_append, hv, Option.bind_some, ht]

theorem returns_of_ended {names : List String} {hs : List Happening} {s : Supervisor}
    (ht : Tracks names hs s) (hh : Heeds names hs s) (hrunning : s.running = [])
    (hopen : s.outcome? = none) {order : List ℕ} (horder : order.Perm (s.ended.map (·.1))) :
    ∃ more t, (∀ h ∈ more, h.isOwn = true) ∧ joinsIn more = order ∧ s.run? more = some t ∧
      t.outcome?.isSome := by
  have hreturned : ∀ x, s.stage ≠ .returned x := fun x hx => by simp [outcome?, hx] at hopen
  by_cases hclosing : s.stage = .closing
  · have hended := (hh.alone (.inl hclosing)).2
    obtain rfl : order = [] := by simpa [hended] using horder
    have hrun : s.run? [.advanced] =
        some { s with stopped := true, stage := .returned s.verdict } := by
      simp [step?, advance?, hclosing]
    exact ⟨_, _, by simp [Happening.isOwn], rfl, hrun, rfl⟩
  · obtain ⟨n, v, hv, hvstage, hvrunning, hvended⟩ := exists_waiting hclosing hreturned
    rw [← hvended] at horder
    obtain ⟨more, t, hown, hjoins, hmore, hreturns⟩ := returns_of_waiting
      (hvrunning.trans hrunning) (hvended ▸ ht.ended_nodup) hvstage horder
    refine ⟨List.replicate n .advanced ++ more, t, ?_, ?_, ?_, hreturns⟩
    · simp only [List.mem_append, List.mem_replicate]
      rintro h (⟨-, rfl⟩ | hh)
      · rfl
      · exact hown h hh
    · rw [joinsIn_append, joinsIn_replicate, List.nil_append, hjoins]
    · rw [run?_append, hv, Option.bind_some, hmore]

theorem outcome?_eq_some_iff {s : Supervisor} {x : Result Unit} :
    s.outcome? = some x ↔ s.stage = .returned x := by
  unfold outcome?
  cases s.stage <;> simp

theorem verdict_eq_ok_iff {s : Supervisor} : s.verdict = .ok () ↔ s.failure = none := by
  rw [verdict]
  cases s.failure <;> simp

theorem verdict_eq_error_iff {s : Supervisor} {r : Report} :
    s.verdict = .error r ↔ s.failure = some r := by
  rw [verdict]
  cases s.failure <;> simp

theorem Tracks.all_joined {names : List String} {hs : List Happening} {s : Supervisor}
    (ht : Tracks names hs s) (hrunning : s.running = []) (hended : s.ended = []) {i : ℕ}
    (hi : i < names.length) : i ∈ joinsIn hs ∧ ∃ e, endingIn hs i = some e := by
  have hnot : endingIn hs i ≠ none := fun hnone => by
    have hmem := (ht.running i).2 ⟨hi, hnone⟩
    simp [hrunning] at hmem
  obtain ⟨e, he⟩ := Option.ne_none_iff_exists'.1 hnot
  refine ⟨?_, e, he⟩
  by_contra hni
  have hmem := (ht.ended i e).2 ⟨he, hni⟩
  simp [hended] at hmem

theorem Tracks.lt_of_joined {names : List String} {hs : List Happening} {s : Supervisor}
    (ht : Tracks names hs s) {i : ℕ} (hi : i ∈ joinsIn hs) : i < names.length := by
  obtain ⟨e, he⟩ := Option.isSome_iff_exists.1 (ht.joined i hi)
  exact ht.known i e he

/-- A supervisor returns only when every worker has ended and was joined, and then in success just if
all ended well, else with the failure that was joined first; by then it has cancelled its workers. It
cancels them before it joins another one after a failure, and for no other reason of its own while
any of them is left. When all have ended, it does return, in whatever order it joins them. -/
theorem supervision_outcome (names : List String) (hs : List Happening) {s : Supervisor}
    (hrun : (start names).run? hs = some s) :
    (∀ x, s.outcome? = some x →
      (joinsIn hs).Perm (List.range names.length) ∧
      (∀ i < names.length, ∃ e, endingIn hs i = some e) ∧
      (x = .ok () ↔ ∀ i < names.length, endingIn hs i = some .done) ∧
      (∀ r, x = .error r ↔ Blames names hs r) ∧ s.stopped = true) ∧
    (∀ i t, s.step? (.joined i) = some t → (∃ j ∈ joinsIn hs, endingIn hs j ≠ some .done) →
      s.stopped = true) ∧
    (s.stopped = true → .cancelled ∈ hs ∨ (∃ j ∈ joinsIn hs, endingIn hs j ≠ some .done) ∨
      s.outcome?.isSome) ∧
    (s.running = [] → s.outcome? = none → ∀ order : List ℕ, order.Perm (s.ended.map (·.1)) →
      ∃ more t, (∀ h ∈ more, h.isOwn = true) ∧ joinsIn more = order ∧ s.run? more = some t ∧
        t.outcome?.isSome) := by
  obtain ⟨ht, hh⟩ := accounts_of_run? hrun
  have hfailing : (∃ j ∈ joinsIn hs, endingIn hs j ≠ some .done) ↔ s.known.isSome := by
    rw [← hh.failure, ← not_iff_not, Option.not_isSome_iff_eq_none, firstFailure_eq_none_iff ht]
    simp
  refine ⟨fun x hx => ?_, fun i t hjoin hfail => ?_, fun hstopped => ?_, fun hrunning hopen order =>
    returns_of_ended ht hh hrunning hopen⟩
  · rw [outcome?_eq_some_iff] at hx
    obtain ⟨hstopped, rfl⟩ := hh.returned x hx
    obtain ⟨hrunning, hended⟩ := hh.alone (.inr ⟨_, hx⟩)
    have hall : ∀ i < names.length, i ∈ joinsIn hs ∧ ∃ e, endingIn hs i = some e :=
      fun i hi => ht.all_joined hrunning hended hi
    have hknown : s.known = s.failure := by rw [known, hx]
    have hfailure : firstFailure names hs = s.failure := hh.failure.trans hknown
    refine ⟨?_, fun i hi => (hall i hi).2, ?_, fun r => ?_, hstopped⟩
    · refine (List.perm_ext_iff_of_nodup ht.joins_nodup List.nodup_range).2 fun i => ?_
      rw [List.mem_range]
      exact ⟨ht.lt_of_joined, fun hi => (hall i hi).1⟩
    · rw [verdict_eq_ok_iff, ← hfailure, firstFailure_eq_none_iff ht]
      exact ⟨fun h i hi => h i (hall i hi).1, fun h i hi => h i (ht.lt_of_joined hi)⟩
    · rw [verdict_eq_error_iff, ← hfailure, firstFailure_eq_some_iff ht]
  · have hstage : s.stage = .waiting := by
      cases moves_of_step? hjoin with
      | joined hstage _ => exact hstage
    rw [hfailing, known_of_waiting hstage] at hfail
    exact hh.noted hfail
  · rcases hh.reason hstopped with hcancelled | hknown | ⟨x, hx⟩
    · exact .inl hcancelled
    · exact .inr (.inl (hfailing.2 hknown))
    · exact .inr (.inr (by rw [outcome?_eq_some_iff.2 hx]; rfl))

/-- One worker ends well, one fails with a report of its own, and one panics as it is cancelled. -/
theorem supervision_outcome_sample :
    let hs : List Happening :=
      [.ended 0 .done, .joined 0, .ended 2 (.failed .external), .joined 2, .cancelled, .advanced,
        .advanced, .ended 1 .panicked, .joined 1, .advanced, .advanced, .advanced, .advanced]
    ∃ s, (start ["nodes", "pods", "probe"]).run? hs = some s ∧
      s.outcome? = some (.error (Report.external.because (.worker (.failed "probe")))) ∧
      (joinsIn hs).Perm (List.range 3) ∧
      Blames ["nodes", "pods", "probe"] hs (Report.external.because (.worker (.failed "probe"))) ∧
      s.stopped = true := by
  intro hs
  obtain ⟨s, hrun, hx⟩ : ∃ s, (start ["nodes", "pods", "probe"]).run? hs = some s ∧
      s.outcome? = some (.error (Report.external.because (.worker (.failed "probe")))) :=
    ⟨_, rfl, rfl⟩
  obtain ⟨hperm, -, -, hblames, hstopped⟩ := (supervision_outcome _ hs hrun).1 _ hx
  exact ⟨s, hrun, hx, hperm, (hblames _).1 rfl, hstopped⟩

end Supervisor

end SessionWatch
