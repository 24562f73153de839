/-!
Where the log goes: to the standard error stream, or to files that are named after the last
part of a path.
-/

namespace SessionWatch

inductive LogTarget where
  | stderr
  | files (name : String)
  deriving DecidableEq

namespace LogTarget

/-- The parts of a path between its slashes, without those that stay in place. -/
def parts (path : String) : List (List Char) :=
  (path.toList.splitOnP (· = '/')).filter fun p => p ≠ [] && p ≠ ['.']

def fileName? (path : String) : Option String :=
  match (parts path).getLast? with
  | none => none
  | some p => if p = ['.', '.'] then none else some (String.ofList p)

def noFileName (path : String) : String := "Log path `" ++ path ++ "` has no file name"

def ofPath? : Option String → Option LogTarget
  | none => some .stderr
  | some path => (fileName? path).map .files

/-- Whether something has to be kept alive for the log to be written. -/
def isGuarded : LogTarget → Bool
  | stderr => false
  | files _ => true

end LogTarget

end SessionWatch
