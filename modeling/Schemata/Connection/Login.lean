import Schemata.Connection.Url

/-!
# Connections — logins

What a MySQL server is connected with: the parts of an address, and the usual ones where the
address has none.  User and password are written with escapes in an address.
-/

namespace Schemata

/-- What a MySQL server is connected with. -/
structure Login where
  host : String
  portNumber : Int
  user : String
  password : String
  database : Option String
  timeout : Int
  deriving DecidableEq, Repr

/-- The text, or another one if it is empty. -/
def orIfEmpty (s other : String) : String := if s.isEmpty then other else s

namespace Login

/-- The number of a server that does not say which. -/
def usualPortNumber : Int := 3306

/-- The login of an address.  The number zero counts as none. -/
def ofUrl (url : String) (timeout : Int) : Except UrlFault Login := do
  let parts ← Url.ofString url
  let number ← parts.portNumber
  let database := String.ofList (parts.path.dropWhile (· == '/'))
  pure
    { host := orIfEmpty parts.host "localhost"
      portNumber := if number.getD 0 = 0 then usualPortNumber else number.getD 0
      user := Text.unescaped parts.user
      password := Text.unescaped parts.password
      database := if database.isEmpty then none else some database
      timeout }

end Login

end Schemata
