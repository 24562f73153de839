import SessionWatch.Cluster.Object

/-!
What a watch tells its listener.
-/

namespace SessionWatch.Cluster

inductive Callback where
  | added (object : Object)
  | updated (old new : Object)
  | deleted (object : Object)
  | failed (message : String)

def Object.properName (o : Object) : Result String :=
  match o.metadata.name with
  | some name => .ok name
  | none => .error (.of (.object (.missingField "metadata.name")))

end SessionWatch.Cluster
