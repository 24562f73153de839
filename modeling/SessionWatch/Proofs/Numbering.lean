import SessionWatch.Proofs.Chronology

/-!
Ids of a store's own choice. A store may be asked for anything at any times, may refuse what it
likes, and its wall clock may go anywhere: the ids that it chooses for entries rise, no two of them
read alike, and none is behind the clock.
-/

namespace SessionWatch

theorem Clock.toNat_millis (c : Clock) : (c.millis.toNat : ℤ) = max 0 c.wall.toInt := by
  have hhigh := Int64.toInt_lt c.wall
  have hfits : c.wall.toInt.toNat < 2 ^ 64 := by omega
  rw [millis, UInt64.toNat_ofNat_of_lt' hfits]
  omega

namespace Storage

/-! ### Ids given out one after the other -/

namespace StreamId

/-- The ids given out at these times behind another id. -/
def following (last : StreamId) : List UInt64 → List StreamId
  | [] => []
  | now :: later => last.next now :: (last.next now).following later

@[simp] theorem following_nil (last : StreamId) : last.following [] = [] := rfl

@[simp] theorem following_cons (last : StreamId) (now : UInt64) (later : List UInt64) :
    last.following (now :: later) = last.next now :: (last.next now).following later := rfl

theorem lt_irrefl (i : StreamId) : ¬ i < i := by
  rw [lt_iff]
  rintro (h | ⟨-, h⟩) <;> exact UInt64.lt_irrefl _ h

/-- Whatever the times are, the ids rise: one millisecond has numbers for all of them. -/
theorem following_rises {last : StreamId} {nows : List UInt64}
    (h : last.seq.toNat + nows.length < UInt64.size) :
    (last :: last.following nows).Pairwise (· < ·) := by
  induction nows generalizing last with
  | nil => exact List.pairwise_singleton _ _
  | cons now later ih =>
    rw [List.length_cons] at h
    have hroom : last.seq.toNat + 1 < UInt64.size := by omega
    have hfirst : last < last.next now := lt_next hroom now
    have hseq := seq_next_le hroom now
    have hrest : (last.next now :: (last.next now).following later).Pairwise (· < ·) :=
      ih (by omega)
    refine List.pairwise_cons.2 ⟨fun i hi => ?_, hrest⟩
    rcases List.mem_cons.1 hi with rfl | hi
    · exact hfirst
    · exact lt_trans hfirst ((List.pairwise_cons.1 hrest).1 i hi)

theorem following_not_behind (last : StreamId) (nows : List UInt64) :
    List.Forall₂ (fun now i => now ≤ i.millis) nows (last.following nows) := by
  induction nows generalizing last with
  | nil => exact .nil
  | cons now later ih => exact .cons (last.le_millis_next now) (ih _)

end StreamId

/-! ### Requests that a store is asked -/

namespace Request

/-- An entry is to be appended, and the choice of its id is left to the store. -/
def LeavesChoice : Request → Prop
  | .append _ id _ => id = automaticId
  | _ => False

instance : DecidablePred LeavesChoice
  | .append _ id _ => inferInstanceAs (Decidable (id = automaticId))
  | .time => inferInstanceAs (Decidable False)
  | .ping => inferInstanceAs (Decidable False)
  | .index _ _ => inferInstanceAs (Decidable False)

def id? : (r : Request) → Option (Result r.Answer) → Option String
  | .append .., some (.ok id) => some id
  | _, _ => none

end Request

/-- A request as a store meets it: the clocks stand so, and it refuses these operations. -/
structure Asking where
  clock : Clock
  refused : List Operation := []
  request : Request

namespace Asking

/-- An entry is to be appended, under whatever id. -/
def Appends (x : Asking) : Prop := x.request.operation = .append

def Draws (x : Asking) : Prop := x.request.LeavesChoice ∧ .append ∉ x.refused

instance : DecidablePred Appends := fun x =>
  inferInstanceAs (Decidable (x.request.operation = .append))

instance : DecidablePred Draws := fun x =>
  inferInstanceAs (Decidable (x.request.LeavesChoice ∧ .append ∉ x.refused))

theorem Draws.appends {x : Asking} (h : x.Draws) : x.Appends := by
  obtain ⟨clock, refused, request⟩ := x
  cases request with
  | append stream id fields => rfl
  | _ => exact h.1.elim

end Asking

namespace Memory

variable {m : Memory} {x : Asking} {xs : List Asking}

def meet (m : Memory) (x : Asking) : Memory × Option (Result x.request.Answer) :=
  ({ m with failing := x.refused } : Memory).exchange x.clock x.request

/-- The ids of its own choice that a store tells in answer to requests, in order. -/
def chosen (m : Memory) : List Asking → List String
  | [] => []
  | x :: xs =>
    (if x.request.LeavesChoice then (x.request.id? (m.meet x).2).toList else []) ++
      (m.meet x).1.chosen xs

theorem lastId_exchange {r : Request} (c : Clock) (hr : ¬ r.LeavesChoice) :
    (m.exchange c r).1.lastId = m.lastId := by
  have hout := m.exchange_outcome c r
  generalize m.exchange c r = y at hout
  cases hout with
  | append stream id fields => exact if_neg hr
  | index set hne _ =>
    rw [putAll_eq]
    rfl
  | broken set done r rest => rw [putAll_eq]
  | _ => rfl

theorem meet_of_draws (m : Memory) (h : x.Draws) :
    (m.meet x).1.lastId = m.lastId.next x.clock.millis ∧
      x.request.id? (m.meet x).2 = some (m.lastId.next x.clock.millis).text := by
  obtain ⟨clock, refused, request⟩ := x
  cases request with
  | append stream id fields =>
    obtain rfl : id = automaticId := h.1
    have hserves : ({ m with failing := refused } : Memory).fails
        (.append stream automaticId fields) = false := by
      simpa [fails, Request.operation] using h.2
    rw [meet, exchange_of_not_fails _ hserves]
    simp [serve, append, Request.id?]
  | _ => exact h.1.elim

/-- All other requests take no id: not under an id of their own, nor in a store that refuses. -/
theorem meet_of_not_draws (m : Memory) (h : ¬ x.Draws) :
    (m.meet x).1.lastId = m.lastId ∧
      (x.request.LeavesChoice → x.request.id? (m.meet x).2 = none) := by
  by_cases hchoice : x.request.LeavesChoice
  · obtain ⟨clock, refused, request⟩ := x
    cases request with
    | append stream id fields =>
      have hrefused : .append ∈ refused := by
        by_contra hnot
        exact h ⟨hchoice, hnot⟩
      have hfails : ({ m with failing := refused } : Memory).fails (.append stream id fields) =
          true := by
        simpa [fails, Request.operation] using hrefused
      rw [meet, exchange_of_fails _ hfails]
      exact ⟨rfl, fun _ => rfl⟩
    | _ => exact hchoice.elim
  · exact ⟨lastId_exchange _ hchoice, fun hleaves => absurd hleaves hchoice⟩

theorem chosen_eq (m : Memory) (xs : List Asking) : m.chosen xs =
    (m.lastId.following ((xs.filter fun x => x.Draws).map (·.clock.millis))).map StreamId.text := by
  induction xs generalizing m with
  | nil => rfl
  | cons x xs ih =>
    rw [chosen, ih]
    by_cases h : x.Draws
    · obtain ⟨hlast, hid⟩ := m.meet_of_draws h
      rw [if_pos h.1, hid, hlast, List.filter_cons_of_pos (by simpa using h)]
      rfl
    · obtain ⟨hlast, hid⟩ := m.meet_of_not_draws h
      have hnone : (if x.request.LeavesChoice then (x.request.id? (m.meet x).2).toList else []) =
          [] := by
        split
        · next hchoice => rw [hid hchoice, Option.toList_none]
        · rfl
      rw [hnone, hlast, List.filter_cons_of_neg (by simpa using h), List.nil_append]

/-- A store is asked for anything, in any order and at any times, with fewer entries to append than
a word can count. Whatever it refuses, each entry that it takes without an id of its own is answered
with one, and these ids rise from one to the next over all streams; so no two of them read alike.
Each is as late as the clock was when it was given out. All other requests, under ids of their own
or refused, may as well not have been. -/
theorem chosen_ids_rise (name : String) (xs : List Asking)
    (hcount : xs.countP (fun x => x.Appends) < UInt64.size) :
    let m : Memory := { name }
    let drawing := xs.filter fun x => x.Draws
    ∃ ids : List StreamId, m.chosen xs = ids.map StreamId.text ∧
      ids.Pairwise (· < ·) ∧ (m.chosen xs).Nodup ∧
      List.Forall₂ (fun x i => max 0 x.clock.wall.toInt ≤ i.millis.toNat) drawing ids ∧
      m.chosen drawing = m.chosen xs := by
  intro m drawing
  have hdrawn : drawing.length ≤ xs.countP fun x => x.Appends := by
    rw [← List.countP_eq_length_filter]
    exact List.countP_mono_left fun x _ h => by simpa using Asking.Draws.appends (by simpa using h)
  have hroom : m.lastId.seq.toNat + (drawing.map (·.clock.millis)).length < UInt64.size := by
    rw [List.length_map]
    exact (Nat.zero_add _).trans_lt (hdrawn.trans_lt hcount)
  have hids := m.chosen_eq xs
  have hrises := (List.pairwise_cons.1 (StreamId.following_rises hroom)).2
  have hbehind := StreamId.following_not_behind m.lastId (drawing.map (·.clock.millis))
  refine ⟨_, hids, hrises, ?_, ?_, ?_⟩
  · rw [hids]
    refine List.Nodup.map StreamId.text_injective (hrises.imp fun {i j} hlt heq => ?_)
    exact StreamId.lt_irrefl j (heq ▸ hlt)
  · refine (List.forall₂_map_left_iff.1 hbehind).imp fun x i hle => ?_
    rw [← Clock.toNat_millis]
    exact_mod_cast UInt64.le_iff_toNat_le.1 hle
  · rw [hids, m.chosen_eq drawing, List.filter_filter]
    simp only [Bool.and_self]

end Memory

namespace Sample

/-- A clock before the epoch that then jumps ahead and back, with an id given, a refusal and a
question about the time between. -/
def askings : List Asking :=
  [{ clock := ⟨-5, 0⟩, request := .append "enqueue-session" "*" [("TaskType", "EnqueueSession")] },
   { clock := ⟨1000, 10⟩, request := .append "enqueue-session" "7000-7" [] },
   { clock := ⟨900, 20⟩, request := .append "delete-session" "*" [] },
   { clock := ⟨950, 30⟩, refused := [.append], request := .append "enqueue-session" "*" [] },
   { clock := ⟨940, 40⟩, request := .time },
   { clock := ⟨300, 50⟩, request := .append "enqueue-session" "*" [] }]

end Sample

theorem Memory.chosen_ids_rise_sample :
    Sample.askings.countP (fun x => x.Appends) = 5 ∧ 5 < UInt64.size ∧
      ({ name := "mock" } : Memory).chosen Sample.askings = ["0-1", "900-0", "900-1"] ∧
      (["0-1", "900-0", "900-1"] : List String).Nodup := by
  have hcount : Sample.askings.countP (fun x => x.Appends) = 5 := by decide +kernel
  have hchosen : ({ name := "mock" } : Memory).chosen Sample.askings =
      ["0-1", "900-0", "900-1"] := by decide +kernel
  obtain ⟨-, -, -, hnodup, -⟩ :=
    Memory.chosen_ids_rise "mock" Sample.askings (by rw [hcount]; decide)
  exact ⟨hcount, by decide, hchosen, hchosen ▸ hnodup⟩

end Storage

end SessionWatch
