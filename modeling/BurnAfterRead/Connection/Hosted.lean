import BurnAfterRead.Connection.Address

/-!
# Addresses of Redis and MongoDB

Addresses that are put together from parts as they are given, unless a full one is given.
-/

namespace BurnAfterRead.Connection

/-- The address of a Redis server. A database that is no number is the first one. -/
def redisUri (db : DatabaseSettings) : String :=
  match db.uri with
  | some uri => uri
  | none =>
    let scheme := if asksForTls db.tlsMode then "rediss" else "redis"
    let user := match db.username, db.password with
      | some name, some word => name ++ ":" ++ word ++ "@"
      | none, some word => ":" ++ word ++ "@"
      | _, none => ""
    let number := (Text.readUpTo Text.maxUInt32 db.database.toList).getD 0
    scheme ++ "://" ++ user ++ db.address.getD "localhost:6379" ++ "/" ++ toString number

/-- The address of a MongoDB server. -/
def mongoUri (db : DatabaseSettings) : String :=
  match db.uri with
  | some uri => uri
  | none =>
    let user := match db.username, db.password with
      | some name, some word => name ++ ":" ++ word ++ "@"
      | some name, none => name ++ "@"
      | none, _ => ""
    "mongodb://" ++ user ++ db.address.getD "localhost:27017" ++ "/" ++
      (if asksForTls db.tlsMode then "?tls=true" else "")

end BurnAfterRead.Connection
