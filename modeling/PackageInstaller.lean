import PackageInstaller.Logging
import PackageInstaller.Main
import PackageInstaller.Manifest.AnchorSource
import PackageInstaller.Progress.Step
import PackageInstaller.Proofs.Boundaries
import PackageInstaller.Proofs.Bracketed
import PackageInstaller.Proofs.Durations
import PackageInstaller.Proofs.Escapes
import PackageInstaller.Proofs.Index
import PackageInstaller.Proofs.Listening
import PackageInstaller.Proofs.Lookups
import PackageInstaller.Proofs.OnePackage
import PackageInstaller.Proofs.OwnLine
import PackageInstaller.Proofs.Placement
import PackageInstaller.Proofs.Preservation
import PackageInstaller.Proofs.Procedures
import PackageInstaller.Proofs.Questions
import PackageInstaller.Proofs.Relocation
import PackageInstaller.Proofs.Reordering
import PackageInstaller.Proofs.Sealed
import PackageInstaller.Proofs.Session
import PackageInstaller.Proofs.Spelling
import PackageInstaller.Proofs.TargetArrays
import PackageInstaller.Proofs.Timeline
import PackageInstaller.Proofs.Unescaped
import PackageInstaller.Proofs.Untouched
import PackageInstaller.Proofs.WellFormed
