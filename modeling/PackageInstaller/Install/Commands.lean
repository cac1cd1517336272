import PackageInstaller.Install.Host

/-!
The toolchain at work on a host.
-/

namespace PackageInstaller.Toolchain

def buildFolder (toolchain : Toolchain) : Path := toolchain.folder.join (Path.ofText ".build".toList)

/-- Removes what earlier builds left. A folder with too long a name cannot even be looked for. -/
def clean (toolchain : Toolchain) : Action Unit := fun h =>
  let folder := toolchain.buildFolder
  match h.disk.locate h.here folder with
  | .error .nameTooLong => (.error (.refused (FileError.message ⟨.nameTooLong, folder⟩).toList), h)
  | .error _ => (.ok (), h)
  | .ok place =>
    match h.disk.get? place with
    | none => (.ok (), h)
    | some (.file _) => (.error (.buildNotFolder folder), h)
    | some .folder =>
      match h.removal with
      | none =>
        Action.logged .info "toolchain.cleaned" [("path", .text folder.text)]
          { h with disk := h.disk.erase place }
      | some removal =>
        let gone := removal.gone.filter place.isPrefixOf
        (.error (.refused removal.message), { h with disk := gone.foldl Disk.erase h.disk })

def endingError? (toolchain : Toolchain) (command : List Text) : Ending → Option Failure
  | .exited status report =>
    if status = 0 then none
    else some (.toolchain ⟨command, some status, tail (report.getD [])⟩)
  | .undecodable cause => some (.undecodable cause)
  | .timedOut => some (.toolchain ⟨command, none, timeoutText toolchain.timeout⟩)
  | .notFound message => some (.toolchain ⟨command, none, message⟩)
  | .refused message => some (.refused message)

def commandField (command : List Text) : String × Field := ("command", .text (commandLine command))

def endingEvents (command : List Text) : Ending → List Event
  | .exited status _ =>
    if status = 0 then [⟨.debug, "toolchain.done", [commandField command]⟩]
    else [⟨.warning, "toolchain.failed", [commandField command, ("returncode", .count status)]⟩]
  | _ => []

def startEvent (toolchain : Toolchain) (command : List Text) : Event :=
  ⟨.info, "toolchain.run", [commandField command, ("cwd", .text toolchain.folder.text)]⟩

def callOf (toolchain : Toolchain) (command : List Text) (disk : Disk) : Call :=
  ⟨command, toolchain.folder, toolchain.timeout, disk⟩

/-- Starts a command and waits for its end; anything but success is a failure. -/
def run (toolchain : Toolchain) (subcommand : Subcommand) : Action Unit := fun h =>
  let command := toolchain.command subcommand
  let script := h.swift subcommand
  let events := toolchain.startEvent command :: endingEvents command script.ending
  let after := { h with
    toProgress := h.toProgress.tell events
    disk := script.changes.foldl Disk.apply h.disk
    calls := h.calls ++ [toolchain.callOf command h.disk] }
  match toolchain.endingError? command script.ending with
  | some failure => (.error failure, after)
  | none => (.ok (), after)

end PackageInstaller.Toolchain
