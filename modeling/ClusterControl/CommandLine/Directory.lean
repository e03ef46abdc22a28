import ClusterControl.CommandLine.Program

/-!
# Runs in a directory

A run that sees nothing but some variables and some files, and reaches nobody.
-/

namespace ClusterControl.CommandLine

/-- The name that stands for the directory when it is the home directory. -/
def homeName : String := "$HOME"

/-- The steps of a path inside the directory, dots resolved; `none` when it leads out of it. -/
def pathSteps (path : String) : Option (List String) :=
  let relative := match path.dropPrefix? (homeName ++ "/") with
    | some rest => rest.toString
    | none => path
  if relative.startsWith "/" then none
  else
    (relative.splitOn "/").foldlM
      (fun done step =>
        if step.isEmpty || step == "." then some done
        else if step == ".." then (if done.isEmpty then none else some done.dropLast)
        else some (done ++ [step]))
      []

/-- What is found under a path among files that are named by their paths. -/
def fileState (files : List (String × String)) (path : String) : FileState :=
  match pathSteps path with
  | none => .absent
  | some steps =>
    match files.find? fun f => pathSteps f.1 == some steps with
    | some f => if path.endsWith "/" then .absent else .text f.2
    | none =>
      if path.isEmpty then .absent
      else if files.any fun f => ((pathSteps f.1).map (·.take steps.length)) == some steps then
        .unreadable
      else .absent

/-- The surroundings of a run in the directory, which is also its home directory. -/
def directory (env files : List (String × String)) : Surroundings Id :=
  { setting? := fun name => (env ++ [("HOME", homeName)]).lookup name
    read := fileState files
    fetch := fun _ => none }

end ClusterControl.CommandLine
