import PackageInstaller.Number
import PackageInstaller.Path
import PackageInstaller.Text.Quoted

/-!
The settings of one run: their defaults, what the environment says, and what the caller overrides.
-/

namespace PackageInstaller

abbrev Environment := List (Text × Text)

structure Settings where
  projectFolder : Path
  catalogUrl : Text
  executable : Text
  toolchainTimeout : Number
  catalogTimeout : Number
  manifestName : Text
  lockfileName : Text

inductive SettingsError where
  | notNumber (value : Text)
  deriving DecidableEq, Repr

def SettingsError.message : SettingsError → String
  | .notNumber value => s!"could not convert string to float: {String.ofList (Text.quoted value)}"

inductive Setting where
  | projectFolder (value : Path)
  | catalogUrl (value : Text)
  | executable (value : Text)
  | toolchainTimeout (value : Number)
  | catalogTimeout (value : Number)
  | manifestName (value : Text)
  | lockfileName (value : Text)

namespace Settings

def defaultCatalogUrl : Text := "https://packagecatalog.com".toList

def defaultManifestName : Text := "Package.swift".toList

def defaultLockfileName : Text := "Package.resolved".toList

/-- An empty value counts as none. -/
def textOr (env : Environment) (key default : Text) : Text :=
  match env.lookup key with
  | none => default
  | some value => if value.isEmpty then default else value

def numberOr (env : Environment) (key : Text) (default : Float) : Except SettingsError Number :=
  match env.lookup key with
  | none => .ok (.real default)
  | some value =>
    match Number.readDouble? value with
    | some x => .ok (.real x)
    | none => .error (.notNumber value)

def ofEnvironment (env : Environment) (folder : Path) : Except SettingsError Settings := do
  let toolchainTimeout ← numberOr env "SPMKIT_TOOLCHAIN_TIMEOUT".toList 600
  let catalogTimeout ← numberOr env "SPMKIT_HTTP_TIMEOUT".toList 30
  return {
    projectFolder := folder
    catalogUrl := (textOr env "SPMKIT_CATALOG_URL".toList defaultCatalogUrl).trimRight (· = '/')
    executable := textOr env "SPMKIT_SWIFT".toList "swift".toList
    toolchainTimeout := toolchainTimeout
    catalogTimeout := catalogTimeout
    manifestName := textOr env "SPMKIT_MANIFEST".toList defaultManifestName
    lockfileName := textOr env "SPMKIT_LOCKFILE".toList defaultLockfileName }

def override (s : Settings) : Setting → Settings
  | .projectFolder value => { s with projectFolder := value }
  | .catalogUrl value => { s with catalogUrl := value }
  | .executable value => { s with executable := value }
  | .toolchainTimeout value => { s with toolchainTimeout := value }
  | .catalogTimeout value => { s with catalogTimeout := value }
  | .manifestName value => { s with manifestName := value }
  | .lockfileName value => { s with lockfileName := value }

def manifestPath (s : Settings) : Path := s.projectFolder.join (Path.ofText s.manifestName)

def lockfilePath (s : Settings) : Path := s.projectFolder.join (Path.ofText s.lockfileName)

end Settings

end PackageInstaller
