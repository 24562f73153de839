import SessionWatch.Cluster.Callback

/-!
The objects of one kind as they were last seen. A change of the cluster turns into the
callbacks that tell a listener with the same objects what is different.
-/

namespace SessionWatch.Cluster

inductive Change where
  | applied (o : Object)
  | deleted (o : Object)
  /-- All objects that there are, after a time out of sight. -/
  | relisted (os : List Object)

/-- The last seen objects by their key. -/
structure Store where
  objects : Table Object := ∅

namespace Store

def size (s : Store) : Nat := s.objects.size

/-- Keep an object, which is new or takes the place of the one with its key. -/
def put (s : Store) (o : Object) : Store × Callback :=
  (⟨s.objects.insert o.key o⟩,
    match s.objects.get? o.key with
    | some old => .updated old o
    | none => .added o)

def putAll (s : Store) : List Object → Store × List Callback
  | [] => (s, [])
  | o :: os =>
    let a := s.put o
    let b := a.1.putAll os
    (b.1, a.2 :: b.2)

/-- Drop the object with the key of another; what was last seen is told, or else the other. -/
def drop (s : Store) (o : Object) : Store × Callback :=
  (⟨s.objects.erase o.key⟩, .deleted ((s.objects.get? o.key).getD o))

def lists (os : List Object) (key : String) : Bool := os.any fun o => o.key == key

/-- The objects that a list no longer has, in the order of their keys. -/
def vanished (s : Store) (os : List Object) : List Object :=
  (s.objects.filter fun k _ => !lists os k).entries.map (·.2)

def keepListed (s : Store) (os : List Object) : Store := ⟨s.objects.filter fun k _ => lists os k⟩

/-- The store after a change, and the callbacks: first those about what vanished. -/
def apply (s : Store) : Change → Store × List Callback
  | .applied o =>
    let a := s.put o
    (a.1, [a.2])
  | .deleted o =>
    let a := s.drop o
    (a.1, [a.2])
  | .relisted os =>
    let a := (s.keepListed os).putAll os
    (a.1, (s.vanished os).map .deleted ++ a.2)

@[simp] theorem putAll_nil (s : Store) : s.putAll [] = (s, []) := rfl

theorem putAll_cons (s : Store) (o : Object) (os : List Object) :
    s.putAll (o :: os) =
      (((s.put o).1.putAll os).1, (s.put o).2 :: ((s.put o).1.putAll os).2) := rfl

end Store

inductive Item where
  | change (c : Change)
  | failed (message : String)

namespace Store

/-- A failure is passed on and changes nothing. -/
def receive (s : Store) : Item → Store × List Callback
  | .change c => s.apply c
  | .failed message => (s, [.failed message])

def receiveAll (s : Store) : List Item → Store × List Callback
  | [] => (s, [])
  | i :: is =>
    let a := s.receive i
    let b := a.1.receiveAll is
    (b.1, a.2 ++ b.2)

@[simp] theorem receiveAll_nil (s : Store) : s.receiveAll [] = (s, []) := rfl

theorem receiveAll_append (s : Store) (is js : List Item) :
    s.receiveAll (is ++ js) =
      (((s.receiveAll is).1.receiveAll js).1,
        (s.receiveAll is).2 ++ ((s.receiveAll is).1.receiveAll js).2) := by
  induction is generalizing s with
  | nil => rfl
  | cons i is ih => simp [receiveAll, ih]

end Store

end SessionWatch.Cluster
