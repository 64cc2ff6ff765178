import Precedence.Console
import Precedence.Options
import Precedence.Testing.Discovery

/-!
# Running test scripts

The runner finds test files and runs each of them as a script in a scratch directory, with an
environment that makes the project importable.

## Main definitions

- `runner` — the command
- `Environment` — named variables
- `ScriptCall` — a script, and what it is run with
- `runTestsAt` — the whole run
-/

namespace Precedence

/-- Named variables. -/
abbrev Environment := List (String × String)

/-- A script to run, its working directory and its environment. -/
structure ScriptCall where
  script : String
  directory : String
  environment : Environment
deriving Repr

/-- What a run of test scripts did: what it wrote, its status, whether it made the scratch
directory, and which scripts it ran. -/
structure TestRun where
  console : Console
  status : Nat
  madeScratch : Bool
  calls : List ScriptCall
deriving Repr

/-- The directory that scripts are run in. -/
def scratchDirectory : String := "_build/_utest"

/-- The command that runs tests. -/
def runner : Command where
  name := "__main__.py"
  usage := "__main__.py [-h] [paths ...]"
  description :=
    "Find and run utest unit tests with the extension \".ut.py\", defaulting to\n"
      ++ "\"test/\".\n\n"
      ++ "positional arguments:\n"
      ++ "  paths\n\n"
      ++ "options:\n"
      ++ "  -h, --help  show this help message and exit\n"
  options := [Command.helpOption]

namespace Environment

/-- Set a variable. -/
def set (environment : Environment) (name text : String) : Environment :=
  environment.filter (·.1 != name) ++ [(name, text)]

/-- The environment of the scripts: reports are relative to the working directory unless another one
is set already, and modules are looked for there first. -/
def forScripts (environment : Environment) (workDir : String) : Environment :=
  let withDir :=
    if (environment.lookup "UTEST_WORK_DIR").isSome then environment
    else environment.set "UTEST_WORK_DIR" workDir
  let modules := (environment.lookup "PYTHONPATH").getD ""
  withDir.set "PYTHONPATH" (if modules.isEmpty then workDir else workDir ++ ":" ++ modules)

end Environment

/-- What is written about a script that ended with a status: its path, and a blank line if the
status is not zero. -/
def scriptText (path : String) (status : Int) : String :=
  path ++ "\n" ++ (if status = 0 then "" else "\n")

/-- Run the test files of some paths, given what paths lead to. `statusOf` is the status that a
script ends with when it is run after a number of others. -/
def runTestFiles (leadsTo : String → Option FileTree) (workDir : String) (environment : Environment)
    (statusOf : Nat → String → Int) (paths : List String) : TestRun :=
  let scripts := (testFilesOf leadsTo paths).map fun path =>
    (path, relativePath workDir path scratchDirectory)
  let statuses := scripts.zipIdx.map fun ((path, script), index) => (path, statusOf index script)
  { console := ⟨String.join (statuses.map fun (path, status) => scriptText path status), ""⟩
    status := if statuses.all fun (_, status) => status = 0 then 0 else 1
    madeScratch := true
    calls := scripts.map fun (_, script) =>
      ⟨script, scratchDirectory, environment.forScripts workDir⟩ }

/-- A run with the arguments of the command line, given what paths lead to. Without paths the tests
below `test` are run. -/
def runTestsAt (leadsTo : String → Option FileTree) (workDir : String) (environment : Environment)
    (statusOf : Nat → String → Int) (args : List String) : TestRun :=
  match readOptions runner.options args with
  | .error message => ⟨⟨"", runner.refusal message⟩, 2, false, []⟩
  | .ok .help => ⟨⟨runner.help, ""⟩, 0, false, []⟩
  | .ok (.run _ paths) =>
    runTestFiles leadsTo workDir environment statusOf (if paths.isEmpty then ["test"] else paths)

/-- A run in a working directory with a given tree, where a script ends with the same status
whenever it is run. -/
def runTests (tree : FileTree) (workDir : String) (environment : Environment)
    (statusOf : String → Int) (args : List String) : TestRun :=
  runTestsAt tree.find? workDir environment (fun _ => statusOf) args

end Precedence
