import GladiusMasternode.Library.Pattern
import GladiusMasternode.Library.Pieces
import GladiusMasternode.Model.NetworkState
/-
# How the gateway's answer is read (`libs/httplib.h`)

`process_request` reads the status line, the headers and the body off the socket. The writers are those
of the library's own server.

| here | there |
| --- | --- |
| `Stream`     | `SocketStream`: what the socket will deliver, and whether `recv` then fails or reports the end |
| `LineBuffer` | the buffers of `stream_line_reader`; `grown`: the second one is used when the first is full |
| `Got`        | how `read_content` ends; what it leaves in `out` along with `false` is dropped with the response |
| `stoi`       | `std::stoi`, of a C string; `none` for the exceptions it throws |
| `turns`      | a bound for a loop, at least as many as it can take |
| `isAny`      | `.` of a regular expression |
| `received`, `process_request` | what `Get` returns, or `none` too where it throws: the poller catches the exception and is left with nothing |
-/

namespace GladiusMasternode

namespace Httplib

/-! ## The socket -/

structure Stream where
  pieces : List Bytes
  failed : Bool := false
deriving DecidableEq, Repr

namespace Stream

def bytes (strm : Stream) : Bytes := strm.pieces.flatten

/-- `recv(sock_, ptr, size, 0)`: no byte at the end of the stream, `none` for a negative result. -/
def read (size : Nat) (strm : Stream) : Option Bytes × Stream :=
  let (got, pieces) := Pieces.recv size strm.pieces
  (if got.isEmpty && strm.failed then none else some got, { strm with pieces := pieces })

end Stream

/-! ## Lines -/

structure LineBuffer (fixed_buffer_size_ : Nat) where
  fixed_buffer_ : Bytes := []
  glowable_buffer_ : Bytes := []
  grown : glowable_buffer_ ≠ [] → fixed_buffer_size_ - 1 ≤ fixed_buffer_.length := by simp

namespace LineBuffer

variable {size : Nat}

def ptr (b : LineBuffer size) : Bytes :=
  if b.glowable_buffer_.isEmpty then b.fixed_buffer_ else b.glowable_buffer_

def append (c : UInt8) (b : LineBuffer size) : LineBuffer size :=
  if h : b.fixed_buffer_.length < size - 1 then
    { fixed_buffer_ := b.fixed_buffer_ ++ [c]
      glowable_buffer_ := b.glowable_buffer_
      grown := fun hne => absurd (b.grown hne) (by omega) }
  else
    { fixed_buffer_ := b.fixed_buffer_
      glowable_buffer_ := b.ptr ++ [c]
      grown := fun _ => by omega }

end LineBuffer

/-- The loop of `getline` from `i` on. -/
def getlineLoop {size : Nat} : Nat → Nat → LineBuffer size → Stream → Option Bytes × Stream
  | 0, _, _, strm => (none, strm)
  | turns + 1, i, buffer, strm =>
    match strm.read 1 with
    | (none, strm) => (none, strm)
    | (some [], strm) => (if i = 0 then none else some buffer.ptr, strm)
    | (some (byte :: _), strm) =>
      let buffer := buffer.append byte
      if byte = 10 then (some buffer.ptr, strm) else getlineLoop turns (i + 1) buffer strm

/-- `getline` and `ptr()` of a reader whose first buffer has `size` bytes; `none` for `false`. -/
def getline (size : Nat) (strm : Stream) : Option Bytes × Stream :=
  getlineLoop (strm.bytes.length + 1) 0 ({} : LineBuffer size) strm

/-- What C functions see of a string. -/
def cstr (s : Bytes) : Bytes := s.takeWhile fun b => b != 0

/-- `!strcmp(line, "\r\n")` -/
def isCRLF (line : Bytes) : Bool := cstr line == [13, 10]

def isspace (b : UInt8) : Bool := b == 32 || (9 ≤ b && b ≤ 13)

/-- The value of a digit, up to 15. -/
def digit (b : UInt8) : Option Nat :=
  if 48 ≤ b && b ≤ 57 then some (b.toNat - 48)
  else if 97 ≤ b && b ≤ 102 then some (b.toNat - 87)
  else if 65 ≤ b && b ≤ 70 then some (b.toNat - 55)
  else none

def isDigit (base : Nat) (b : UInt8) : Bool := (digit b).any fun d => d < base

/-- `0x` in front of a hexadecimal digit is skipped. -/
def skipPrefix (base : Nat) (s : Bytes) : Bytes :=
  match s with
  | 48 :: x :: d :: s' => if base = 16 && (x = 120 || x = 88) && isDigit 16 d then d :: s' else s
  | _ => s

def valueOf (base : Nat) (ds : Bytes) : Nat := ds.foldl (fun v d => base * v + (digit d).getD 0) 0

def stoi (base : Nat) (s : Bytes) : Option Int :=
  let s := (cstr s).dropWhile isspace
  let (neg, s) := match s with
    | 45 :: s => (true, s)
    | 43 :: s => (false, s)
    | s => (false, s)
  let ds := (skipPrefix base s).takeWhile (isDigit base)
  if ds = [] then none
  else
    let n : Int := if neg then -(valueOf base ds) else valueOf base ds
    if -2 ^ 31 ≤ n && n < 2 ^ 31 then some n else none

/-! ## The head -/

def isAny (b : UInt8) : Bool := b != 10 && b != 13

open Pattern in
/-- `(HTTP/1\.[01]) (\d+?) .+\r\n`, and its second group. -/
def statusPattern (line : Bytes) : Option Bytes :=
  (literal [72, 84, 84, 80, 47, 49, 46] (one (fun b => b == 48 || b == 49) (one (· == 32)
    (some1 (isDigit 10) few (one (· == 32) (some1 isAny many (literal [13, 10] done))))))
      line).map Prod.fst

open Pattern in
/-- `(.+?):\s*(.+?)\s*\r\n`, and its two groups. -/
def headerPattern (line : Bytes) : Option (Bytes × Bytes) :=
  (some1 isAny few (one (· == 58) (many isspace (some1 isAny few (many isspace
    (literal [13, 10] done))))) line).map fun (key, _, val, _) => (key, val)

/-- The status, -1 where the line is no status line; `none` for `false` and for an exception. -/
def read_response_line (strm : Stream) : Option Int × Stream :=
  match getline 2048 strm with
  | (none, strm) => (none, strm)
  | (some line, strm) =>
    match statusPattern (cstr line) with
    | none => (some (-1), strm)
    | some digits => (stoi 10 digits, strm)

/-- A `std::string`, byte by byte. -/
def text (bs : Bytes) : String := String.ofList (bs.map fun b => Char.ofNat b.toNat)

def headersLoop : Nat → HTTPHeaders → Stream → Option HTTPHeaders × Stream
  | 0, _, strm => (none, strm)
  | turns + 1, headers, strm =>
    match getline 2048 strm with
    | (none, strm) => (none, strm)
    | (some line, strm) =>
      if isCRLF line then (some headers, strm)
      else
        match headerPattern (cstr line) with
        | none => headersLoop turns headers strm
        | some (key, val) => headersLoop turns (headers ++ [(text key, text val)]) strm

def read_headers (strm : Stream) : Option HTTPHeaders × Stream :=
  headersLoop (strm.bytes.length + 1) [] strm

/-! ## Bodies -/

inductive Got where
  | body (out : Bytes)
  | dropped
  | threw
deriving DecidableEq, Repr

/-- The loop of `read_content_with_length` while `missing` bytes, `len - r`, are to come. -/
def fill : Nat → Nat → Bytes → Stream → Option Bytes × Stream
  | _, 0, out, strm => (some out, strm)
  | 0, _ + 1, _, strm => (none, strm)
  | turns + 1, missing + 1, out, strm =>
    match strm.read (missing + 1) with
    | (none, strm) | (some [], strm) => (none, strm)
    | (some (b :: bs), strm) => fill turns (missing + 1 - (b :: bs).length) (out ++ b :: bs) strm

def read_content_with_length (len : Nat) (strm : Stream) : Option Bytes × Stream := fill len len [] strm

def untilEnd : Nat → Bytes → Stream → Got
  | 0, _, _ => .dropped
  | turns + 1, out, strm =>
    match strm.read 1 with
    | (none, _) => .dropped
    | (some [], _) => .body out
    | (some (byte :: _), strm) => untilEnd turns (out ++ [byte]) strm

def read_content_without_length (strm : Stream) : Got := untilEnd (strm.bytes.length + 1) [] strm

/-- The size of the reader's buffer in `read_content_chunked`. -/
def bufsiz : Nat := 16

/-- `read_content_chunked` from the test of `chunk_len` on. -/
def chunks : Nat → Int → Bytes → Stream → Got
  | 0, _, _, _ => .dropped
  | turns + 1, chunk_len, out, strm =>
    if chunk_len > 0 then
      match read_content_with_length chunk_len.toNat strm with
      | (none, _) => .dropped
      | (some chunk, strm) =>
        match getline bufsiz strm with
        | (none, _) => .dropped
        | (some line, strm) =>
          if isCRLF line then
            let out := out ++ chunk
            match getline bufsiz strm with
            | (none, _) => .dropped
            | (some line, strm) =>
              match stoi 16 line with
              | none => .threw
              | some chunk_len => chunks turns chunk_len out strm
          else .body out  -- `break`
    else if chunk_len = 0 then
      match getline bufsiz strm with
      | (some line, _) => if isCRLF line then .body out else .dropped
      | (none, _) => .dropped
    else .body out

def read_content_chunked (strm : Stream) : Got :=
  match getline bufsiz strm with
  | (none, _) => .dropped
  | (some line, rest) =>
    match stoi 16 line with
    | none => .threw
    | some chunk_len => chunks (strm.bytes.length + 1) chunk_len [] rest

/-- The first value under a name, names compared without case. -/
def get_header_value (headers : HTTPHeaders) (key : String) : Option String :=
  (headers.find? fun h => sameName h.1 key).map Prod.snd

def isChunked (headers : HTTPHeaders) : Bool :=
  sameName ((get_header_value headers "Transfer-Encoding").getD "") "chunked"

/-- A negative length is a `size_t` past `max_size()`, for which `assign` throws. -/
def read_content (headers : HTTPHeaders) (strm : Stream) : Got :=
  match get_header_value headers "Content-Length" with
  | some value =>
    match stoi 10 value.toUTF8.data.toList with
    | none => .threw
    | some len =>
      if len = 0 && isChunked headers then read_content_chunked strm
      else if len < 0 then .threw
      else match read_content_with_length len.toNat strm with
        | (some out, _) => .body out
        | (none, _) => .dropped
  | none => if isChunked headers then read_content_chunked strm else read_content_without_length strm

/-! ## The client -/

/-- `Client::process_request` from the body on, without `CPPHTTPLIB_ZLIB_SUPPORT`. -/
def received (status : Nat) (headers : HTTPHeaders) (strm : Stream) : Option HttpResult :=
  match read_content headers strm with
  | .body out =>
    if (get_header_value headers "Content-Encoding").getD "" = "gzip" then none
    else some ⟨status, text out⟩
  | .dropped | .threw => none

/-- A status of -1 is given as 0: the caller only asks whether it is 200. -/
def process_request (strm : Stream) : Option HttpResult :=
  match read_response_line strm with
  | (none, _) => none
  | (some status, strm) =>
    match read_headers strm with
    | (none, _) => none
    | (some headers, strm) => received status.toNat headers strm

/-! ## The writer (`Server::write_response`) -/

/-- The bytes of a text without letters beyond ASCII. -/
def ascii (s : String) : Bytes := s.toList.map fun c => UInt8.ofNat c.toNat

def status_message (status : Nat) : String :=
  match status with
  | 200 => "OK"
  | 301 => "Moved Permanently"
  | 302 => "Found"
  | 303 => "See Other"
  | 304 => "Not Modified"
  | 400 => "Bad Request"
  | 403 => "Forbidden"
  | 404 => "Not Found"
  | 415 => "Unsupported Media Type"
  | _ => "Internal Server Error"

def write_response_line (status : Nat) : Bytes :=
  ascii "HTTP/1.1 " ++ (toString status).toUTF8.data.toList ++ [32] ++
    ascii (status_message status) ++ [13, 10]

def write_headers (headers : List (Bytes × Bytes)) : Bytes :=
  headers.flatMap (fun x => x.1 ++ [58, 32] ++ x.2 ++ [13, 10]) ++ [13, 10]

/-! ### Chunks -/

def charset (d : Nat) : UInt8 := if d < 10 then UInt8.ofNat (48 + d) else UInt8.ofNat (87 + d)

/-- The `do` loop of `from_i_to_hex`; 64 bits have 16 digits. -/
def hexDigits : Nat → Nat → Bytes → Bytes
  | 0, _, ret => ret
  | turns + 1, n, ret =>
    let ret := charset (n % 16) :: ret
    let n := n / 16
    if n > 0 then hexDigits turns n ret else ret

def from_i_to_hex (n : Nat) : Bytes := hexDigits 16 n []

def write_chunk (chunk : Bytes) : Bytes := from_i_to_hex chunk.length ++ [13, 10] ++ chunk ++ [13, 10]

/-- The chunks that a `streamcb` returns; the empty one at the end is written as well. -/
def write_chunks (chunks : List Bytes) : Bytes := chunks.flatMap write_chunk ++ write_chunk []

end Httplib

end GladiusMasternode
