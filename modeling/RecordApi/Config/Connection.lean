import RecordApi.Config.Database
import RecordApi.Console.Logger

/-!
# Trying a connection

Whether the database at an address can be opened, and what the console tells about it.
-/

namespace RecordApi

/-- Tries to open a database, where files may be made in the given folders. -/
def DatabaseUrl.connect (folders : List String) (url : DatabaseUrl) : Bool × Console.Step :=
  if url.opens folders then (true, .message .success s!"Connected to {url.text}")
  else (false, .message .error "Database connection failed")

end RecordApi
