import PackageInstaller.Catalog.Schema
import PackageInstaller.Json.Reader
import PackageInstaller.Text.Quoted

/-!
Why the catalog could not answer.
-/

namespace PackageInstaller.Catalog

/-- What goes wrong before there is a response. -/
inductive TransportKind where
  | readTimeout
  | writeTimeout
  | connectTimeout
  | poolTimeout
  | connectError
  | readError
  | writeError
  | closeError
  | localProtocolError
  | remoteProtocolError
  | unsupportedProtocol
  | proxyError
  deriving DecidableEq, Repr

def TransportKind.name : TransportKind → String
  | .readTimeout => "ReadTimeout"
  | .writeTimeout => "WriteTimeout"
  | .connectTimeout => "ConnectTimeout"
  | .poolTimeout => "PoolTimeout"
  | .connectError => "ConnectError"
  | .readError => "ReadError"
  | .writeError => "WriteError"
  | .closeError => "CloseError"
  | .localProtocolError => "LocalProtocolError"
  | .remoteProtocolError => "RemoteProtocolError"
  | .unsupportedProtocol => "UnsupportedProtocol"
  | .proxyError => "ProxyError"

def TransportKind.all : List TransportKind :=
  [.readTimeout, .writeTimeout, .connectTimeout, .poolTimeout, .connectError, .readError, .writeError,
    .closeError, .localProtocolError, .remoteProtocolError, .unsupportedProtocol, .proxyError]

/-- What goes wrong with a request or a response as such; asking again would not help. -/
inductive ExchangeKind where
  | tooManyRedirects
  | decodingError
  | invalidUrl
  deriving DecidableEq, Repr

/-- A last attempt that failed. -/
inductive LastFault where
  | status (status : Int)
  | transport (kind : TransportKind) (message : Text)
  deriving DecidableEq, Repr

def LastFault.describe : LastFault → String
  | .status code => s!"HTTP {code}"
  | .transport kind message => if message.isEmpty then kind.name else String.ofList message

inductive Query where
  | package (name : Text)
  | search (words : Text)
  deriving DecidableEq, Repr

inductive CatalogError where
  | refused (path : Text) (status : Int)
  | unreachable (path : Text) (attempts : Nat) (last : LastFault)
  | unreadable (path : Text) (cause : Json.BodyError)
  | invalid (query : Query) (problems : List Problem)
  | nothingFound (words : Text)
  deriving DecidableEq, Repr

namespace CatalogError

def describeQuery : Query → String
  | .package name => s!"package {String.ofList (Text.quoted name)}"
  | .search words => s!"search {String.ofList (Text.quoted words)}"

def invalidIntroduction (query : Query) : String := s!"Bad JSON for {describeQuery query}: "

def problemCount (problems : List Problem) : String :=
  let plural := if problems.length = 1 then "" else "s"
  s!"{problems.length} validation error{plural}"

def message : CatalogError → String
  | .refused path status => s!"catalog request {String.ofList path} failed with HTTP {status}"
  | .unreachable path attempts last =>
    s!"catalog request {String.ofList path} failed after {attempts} attempts: {last.describe}"
  | .unreadable path cause => s!"Bad JSON from {String.ofList path}: {cause.message}"
  | .invalid query problems => invalidIntroduction query ++ problemCount problems
  | .nothingFound words => s!"no package found matching {String.ofList (Text.quoted words)}"

end CatalogError

/-- Why a look-up failed: all but the first are not the catalog's to report. -/
inductive LookupFailure where
  | catalog (e : CatalogError)
  | exchange (kind : ExchangeKind) (message : Text)
  | unanswered
  | beyondLimits (cause : Json.ReadError)
  deriving DecidableEq, Repr

end PackageInstaller.Catalog
