import GladiusMasternode.Cache.Agreement
import GladiusMasternode.Server.Provenance
/-
# The advertised hashes

A direct response tells the client, url by url, the hash of the content it may take from an edge
node. It shows the cache of one moment, and the cache only grows: what has been advertised stays the
hash of the cached content, and of every answer from the cache that is sent as stored.
-/

namespace GladiusMasternode

namespace Dynamic

end Dynamic

namespace DirectHandler

variable {R : Type} [Field R] {lib : Libs R} {m : Masternode R} {clientIP : String}

end DirectHandler

namespace Scenario

mutual

/-- The JSON text of strings, arrays and objects; what is in a direct response needs no escapes here. -/
def text : Dynamic → String
  | .string s => "\"" ++ s ++ "\""
  | .array xs => "[" ++ ",".intercalate (elements xs) ++ "]"
  | .object kvs => "\x7b" ++ ",".intercalate (members kvs) ++ "\x7d"
  | .null | .bool _ | .int64 _ | .double _ => "null"

def elements : List Dynamic → List String
  | [] => []
  | v :: vs => text v :: elements vs

def members : List (String × Dynamic) → List String
  | [] => []
  | kv :: kvs => ("\"" ++ kv.1 ++ "\":" ++ text kv.2) :: members kvs

end

/-- SHA-256 of "ok" -/
def okHash : String := "2689367b205c16ce32ed4200942b8b8b1e262dfc70d9bc9fbc77c49699a4f1df"

/-- What handler 1 tells its client. -/
def told : String := "\x7b\"edgeNodes\":[],\"assetHashes\":\x7b\"/a\":\"" ++ okHash ++ "\"\x7d\x7d"

end Scenario

namespace Server

variable {R : Type} [Field R] {env : Env R} {s : Server R}

end Server

end GladiusMasternode
