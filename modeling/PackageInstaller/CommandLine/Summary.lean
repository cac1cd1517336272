import PackageInstaller.Progress

/-!
The summary that a verbose run ends with: a line for every phase.
-/

namespace PackageInstaller.CommandLine

def statusMark : PhaseStatus → Text
  | .completed => ['+']
  | .failed => ['!']
  | .skipped => ['-']
  | .running => ['?']

def durationPart (r : PhaseRecord) : Text :=
  match Tracker.countedDuration? r with
  | some duration => [' ', '('] ++ duration.text ++ ['s', ')']
  | none => []

def detailPart (r : PhaseRecord) : Text :=
  if r.detail.isEmpty then [] else [' ', '-', ' '] ++ r.detail

def phaseLine (r : PhaseRecord) : Text :=
  [' ', ' ', '['] ++ statusMark r.status ++ [']', ' '] ++ Progress.labelOf r.name ++
    durationPart r ++ detailPart r

def summaryLines (s : Tracker.Summary) : List Text :=
  ("\nInstall summary (total: ".toList ++ s.total.text ++ "s):".toList) :: s.phases.map phaseLine

def printSummary (p : Progress) : Progress :=
  (summaryLines p.tracker.summary).foldl (fun p line => p.printLine .output line) p

end PackageInstaller.CommandLine
