import RecordApi.Conversion.Reading
import RecordApi.Text.Alphanumeric
import RecordApi.Text.Percent

/-!
# Configuration of the database

Where the database is and how connections to it are pooled.  Each setting is given
directly or by a variable of the environment, and else has a default.
-/

namespace RecordApi

structure DatabaseUrl where
  driver : String
  user : Option String := none
  password : Option String := none
  host : Option String := none
  port : Option Int := none
  database : Option String := none
  query : List (String × String) := []

namespace DatabaseUrl

inductive Error where
  | malformed
  | badPort
deriving DecidableEq, Repr

/-- Cuts a text behind the first separator. -/
def cut? (separator : Char) (cs : List Char) : Option (List Char × List Char) :=
  let before := cs.takeWhile (· ≠ separator)
  match cs.drop before.length with
  | _ :: after => some (before, after)
  | [] => none

/-- The user and the password before an at sign, and what follows it. -/
def credentials (cs : List Char) : Option (List Char) × Option (List Char) × List Char :=
  let name := cs.takeWhile fun c => c ≠ ':' && c ≠ '/'
  let withPassword :=
    match cs.drop name.length with
    | ':' :: rest => cut? '@' rest
    | _ => none
  match withPassword with
  | some (password, rest) => (some name, some password, rest)
  | none =>
      if name.contains '@' then
        let tail := (name.reverse.takeWhile (· ≠ '@')).length
        let user := name.take (name.length - tail - 1)
        (some user, none, cs.drop (user.length + 1))
      else (none, none, cs)

/-- The host, possibly in brackets, and what follows it. -/
def hostPart (cs : List Char) : Option (List Char) × List Char :=
  let name := cs.takeWhile fun c => c ≠ ':' && c ≠ '/' && c ≠ '?'
  let plain := (if name.isEmpty then none else some name, cs.drop name.length)
  match cs with
  | '[' :: rest =>
      let inside := rest.takeWhile fun c => c ≠ '/' && c ≠ '?'
      let tail := (inside.reverse.takeWhile (· ≠ ']')).length
      if tail < inside.length && tail + 1 < inside.length then
        let address := inside.take (inside.length - tail - 1)
        (some address, rest.drop (address.length + 1))
      else plain
  | _ => plain

/-- The number of a port, in the digits of any script. -/
def portOf? (cs : List Char) : Option Int := do
  let (negative, ds) := Numeral.splitSign (Numeral.asciiDigits (Text.trimChars cs))
  let ds ← Numeral.ungroup? ds
  if ds.isEmpty || !ds.all Char.isDigit then none
  let n : Int := Numeral.natOfAscii ds
  return if negative then -n else n

def parse (s : String) : Except Error DatabaseUrl :=
  let cs := s.toList
  let driver := cs.takeWhile fun c => c == '+' || Text.isWordChar c
  match driver, cs.drop driver.length with
  | _ :: _, ':' :: '/' :: '/' :: rest =>
      let (user, password, rest) := credentials rest
      let (host, rest) := hostPart rest
      let (port, rest) :=
        match rest with
        | ':' :: rest =>
            let port := rest.takeWhile fun c => c ≠ '/' && c ≠ '?'
            (some port, rest.drop port.length)
        | _ => (none, rest)
      let (database, rest) :=
        match rest with
        | '/' :: rest =>
            let name := rest.takeWhile (· ≠ '?')
            (some name, rest.drop name.length)
        | _ => (none, rest)
      let query :=
        match rest with
        | '?' :: rest => (Text.queryItems rest).filter fun item => !item.2.isEmpty
        | _ => []
      let decoded (part : Option (List Char)) : Option String :=
        part.map fun cs => String.ofList (Text.percentDecoded cs)
      let url (port : Option Int) : DatabaseUrl := {
        driver := String.ofList driver
        user := decoded user
        password := decoded password
        host := host.map String.ofList
        port
        database := database.map String.ofList
        query }
      match port with
      | some (c :: rest) =>
          match portOf? (c :: rest) with
          | some n => .ok (url (some n))
          | none => .error .badPort
      | _ => .ok (url none)
  | _, _ => .error .malformed

/-- The kind of database, without the way to reach it. -/
def backend (url : DatabaseUrl) : String :=
  String.ofList (url.driver.toList.takeWhile (· ≠ '+'))

/-- The database is a file or lives in memory. -/
def isEmbedded (url : DatabaseUrl) : Bool :=
  url.backend == "sqlite"

/-- The database ends with its connection. -/
def isTransient (url : DatabaseUrl) : Bool :=
  match url.database with
  | none => true
  | some name => name == "" || name == ":memory:"

/-- An embedded database has no host. -/
def isConsistent (url : DatabaseUrl) : Bool :=
  !url.isEmbedded ||
    (url.user.isNone && url.password.isNone && url.host.isNone && url.port.isNone)

/-- An embedded database opens when the folder of its file is one of the given ones; the
empty name stands for the current folder. -/
def opens (folders : List String) (url : DatabaseUrl) : Bool :=
  url.isEmbedded && (url.isTransient ||
    match url.database with
    | none => true
    | some file =>
        let cs := file.toList
        let name := (cs.reverse.takeWhile (· ≠ '/')).length
        folders.contains (String.ofList (cs.take (cs.length - name - 1))))

def text (url : DatabaseUrl) : String :=
  let encoded (safe : List Char) (s : String) : String :=
    String.ofList (Text.percentEncoded safe.contains s.toList)
  let form (s : String) : String :=
    String.ofList ((Text.percentEncoded (· == ' ') s.toList).map fun c =>
      if c = ' ' then '+' else c)
  let user :=
    match url.user, url.password with
    | some user, some _ => encoded [' ', '+'] user ++ ":***@"
    | some user, none => encoded [' ', '+'] user ++ "@"
    | none, _ => ""
  let host :=
    match url.host with
    | some host => if host.toList.contains ':' then "[" ++ host ++ "]" else host
    | none => ""
  let port := (url.port.map fun n => ":" ++ toString n).getD ""
  let database := (url.database.map fun s => "/" ++ encoded [' ', '+', '/'] s).getD ""
  let query :=
    if url.query.isEmpty then ""
    else
      let sorted := url.query.mergeSort fun a b => a.1 ≤ b.1
      "?" ++ "&".intercalate (sorted.map fun item => form item.1 ++ "=" ++ form item.2)
  url.driver ++ "://" ++ user ++ host ++ port ++ database ++ query

end DatabaseUrl

/-- How many connections a pool holds and how it hands them out. -/
structure PoolConfig where
  size : Int := 5
  maxOverflow : Int := 10
  timeout : Int := 30
  prePing : Bool := true
deriving DecidableEq, Repr

structure DatabaseConfig where
  url : Option String := none
  driver : String := "postgresql+psycopg2"
  host : String := "localhost"
  port : Int := 5432
  user : String := "postgres"
  password : String := ""
  database : String := "postgres"
  /-- Statements are shown as they are sent. -/
  echo : Bool := false
deriving DecidableEq, Repr

/-- The settings of a group: those given directly, and behind them those of environment
variables, whose names in any letter case are a lead and the name of the setting. -/
def settings (lead : String) (given environment : Assoc Value) (names : List String) :
    Assoc Value :=
  let lower (s : String) : String := String.ofList (s.toList.map Char.toLower)
  names.filterMap fun name =>
    match given.get? name with
    | some v => some (name, v)
    | none =>
        ((environment.filter fun entry => lower entry.1 == lead ++ name).getLast?).map
          fun entry => (name, entry.2)

namespace PoolConfig

open Conversion

def ofSettings (given environment : Assoc Value) : Except (List Issue) PoolConfig :=
  let entries := settings "db_pool_" given environment
    ["pool_size", "max_overflow", "pool_timeout", "pool_pre_ping"]
  let base : PoolConfig := {}
  let size := Reading.field entries "pool_size" base.size (integerFrom 1)
  let overflow := Reading.field entries "max_overflow" base.maxOverflow (integerFrom 0)
  let timeout := Reading.field entries "pool_timeout" base.timeout (integerFrom 1)
  let ping := Reading.field entries "pool_pre_ping" base.prePing truth
  Reading.conclude (size.issues ++ overflow.issues ++ timeout.issues ++ ping.issues)
    ⟨size.value, overflow.value, timeout.value, ping.value⟩

end PoolConfig

/-- What an engine is made with. -/
inductive EngineOptions where
  /-- An embedded database; one connection is shared by all when it is transient. -/
  | embedded (echo shared : Bool)
  | pooled (echo : Bool) (pool : PoolConfig)
deriving DecidableEq, Repr

namespace DatabaseConfig

open Conversion

def ofSettings (given environment : Assoc Value) : Except (List Issue) DatabaseConfig :=
  let entries := settings "db_" given environment
    ["url", "driver", "host", "port", "user", "password", "database", "echo"]
  let base : DatabaseConfig := {}
  let url := Reading.field entries "url" base.url (optional text)
  let driver := Reading.field entries "driver" base.driver text
  let host := Reading.field entries "host" base.host text
  let port := Reading.field entries "port" base.port integer
  let user := Reading.field entries "user" base.user text
  let password := Reading.field entries "password" base.password text
  let database := Reading.field entries "database" base.database text
  let echo := Reading.field entries "echo" base.echo truth
  Reading.conclude
    (url.issues ++ driver.issues ++ host.issues ++ port.issues ++ user.issues ++
      password.issues ++ database.issues ++ echo.issues)
    ⟨url.value, driver.value, host.value, port.value, user.value, password.value,
      database.value, echo.value⟩

/-- The address as it is given, or else put together from its parts. -/
def address (config : DatabaseConfig) : String :=
  match config.url with
  | some (url : String) => if url.isEmpty then assembled config else url
  | none => assembled config
where
  assembled (config : DatabaseConfig) : String :=
    s!"{config.driver}://{config.user}:{config.password}@{config.host}:{config.port}/{config.database}"

def engineOptions (config : DatabaseConfig) (pool : PoolConfig) (url : DatabaseUrl) :
    EngineOptions :=
  if url.isEmbedded then .embedded config.echo url.isTransient else .pooled config.echo pool

end DatabaseConfig
end RecordApi
