import PackageInstaller.Encoding
import PackageInstaller.Number
import PackageInstaller.Path
import PackageInstaller.Text.Classes

/-!
The toolchain's commands: which there are, how a command can end, and how an end that is no success
is reported.
-/

namespace PackageInstaller

structure Toolchain where
  folder : Path
  executable : Text
  timeout : Option Number

inductive Subcommand where
  | update
  | resolve
  | build
  deriving DecidableEq, Repr

def Subcommand.arguments : Subcommand → List Text
  | .update => ["package".toList, "update".toList]
  | .resolve => ["package".toList, "resolve".toList]
  | .build => ["build".toList]

/-- How a started command ends, or why it could not be started. What it printed is decoded once it has
exited; that fails where it is no text. -/
inductive Ending where
  | exited (status : Int) (report : Option Text)
  | undecodable (cause : DecodingError)
  | timedOut
  | notFound (message : Text)
  | refused (message : Text)
  deriving DecidableEq, Repr

structure ToolchainError where
  command : List Text
  status : Option Int
  report : Text
  deriving DecidableEq, Repr

def commandLine (command : List Text) : Text := Text.join [' '] command

namespace ToolchainError

def outcome : Option Int → String
  | none => "could not be started"
  | some status => s!"exit {status}"

def message (e : ToolchainError) : String :=
  let report := if e.report.isEmpty then "" else s!": {String.ofList e.report}"
  s!"`{String.ofList (commandLine e.command)}` failed ({outcome e.status}){report}"

end ToolchainError

namespace Toolchain

def defaultExecutable : Text := ['s', 'w', 'i', 'f', 't']

def defaultTimeout : Number := .real 600

def command (toolchain : Toolchain) (subcommand : Subcommand) : List Text :=
  toolchain.executable :: subcommand.arguments

/-- As many of the last lines of a report as are shown. -/
def shownLines : Nat := 20

def tail (report : Text) : Text :=
  let lines := Text.lines (Text.strip report)
  Text.join ['\n'] (lines.drop (lines.length - shownLines))

def timeoutText (timeout : Option Number) : Text :=
  "timed out after ".toList ++ ((timeout.map Number.text).getD "None".toList) ++ ['s']

end Toolchain

end PackageInstaller
