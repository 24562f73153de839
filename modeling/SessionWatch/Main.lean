import SessionWatch.Program

/-!
The command line: it looks up what the run needs from files and the environment, and leaves
the rest to the program.
-/

open SessionWatch

def environmentNames : List String :=
  Program.logVariable :: CommandLine.Argument.all.map CommandLine.Argument.envName

def readEnvironment : List String → IO (Table String)
  | [] => pure ∅
  | name :: names => do
    let rest ← readEnvironment names
    match ← IO.getEnv name with
    | some value => pure (rest.insert name value)
    | none => pure rest

def readFile? (path : String) : IO (Option String) := do
  try
    let text ← IO.FS.readFile path
    pure (some text)
  catch _ => pure none

def readFiles : List String → IO (Table String)
  | [] => pure ∅
  | path :: paths => do
    let rest ← readFiles paths
    match ← readFile? path with
    | some text => pure (rest.insert path text)
    | none => pure rest

def main (words : List String) : IO UInt32 := do
  let environment ← readEnvironment environmentNames
  let settings ← readFiles (Program.settingsFiles environment words)
  let client ← readFiles (Program.clientFiles environment words settings.get?)
  let file? (path : String) : Option String := (settings.get? path).or (client.get? path)
  let now ← IO.monoMsNow
  let e := Program.run environment words { file? } ⟨0, now⟩
  match e.message with
  | some message => IO.eprintln ("Error: " ++ message)
  | none => pure ()
  pure (.ofNat e.code)
