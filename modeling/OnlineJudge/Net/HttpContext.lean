/-
# `HttpContext`: receiving one request

The state machine of `net/http.hpp` that turns the bytes of a connection's `Buffer` into a request:
the request line, the header lines up to an empty one, and as many body bytes as `Content-Length`
says.  `RecvHttpRequest` is called again whenever bytes have come; each stage runs if the context is
in its state, takes what it can use off the buffer, and leaves the rest.

A buffer is the list of its readable bytes, and every operation that can raise is modelled with its
exception.

The functions are those of the source, with their early returns.  What they come to is told in three
other modules: `Net.ParserSafety` has the exceptions, `Net.Stages` what is left when the bytes come
in two pieces, and `Net.OneRequest` what is read of a request that is well formed.
-/
import OnlineJudge.Net.HttpRequest
import OnlineJudge.Net.RequestLine
import OnlineJudge.Net.Util

namespace OnlineJudge.Net

open ByteString

/-! ## 1. The context

The state says which stage is to run next, and the request is filled as they run.  `ReSet` makes a
context new, and the connection calls it between two requests. -/

inductive HttpRecvStatu
  | error
  | line
  | head
  | body
  | over
deriving DecidableEq, Repr

def maxLine : Nat := 8192

structure HttpContext where
  respStatu : Nat
  recvStatu : HttpRecvStatu
  request : HttpRequest
deriving DecidableEq

/-- `Buffer::GetLineAndPop`: the first line with its `\n`, or nothing if there is none. -/
def getLineAndPop (buf : Bytes) : Bytes × Bytes :=
  match find [10] buf with
  | none => ([], buf)
  | some pos => (buf.take (pos + 1), buf.drop (pos + 1))

namespace HttpContext

/-- A context after its constructor, and after `ReSet`. -/
def reSet : HttpContext := ⟨200, .line, .reSet⟩

/-- The request is refused: the error state, and the status that the response will have. -/
def refuse (ctx : HttpContext) (statu : Nat) : HttpContext :=
  { ctx with recvStatu := .error, respStatu := statu }

/-! ## 2. The stages

A stage that lacks bytes returns `true` and leaves the state as it is; one that refuses the request
sets the error state and returns `false`.  `RecvHttpRequest` does not look at what they return: the
`switch` falls through, and each stage asks for its own state. -/

/-- The loop over the fields of the query string.  One field without `=`, and the whole request is
refused. -/
def parseQuery (ctx : HttpContext) : List Bytes → Except StdException (HttpContext × Bool)
  | [] => .ok (ctx, true)
  | str :: strs => do
    match ← cutAt (ascii "=") str with
    | none => return (ctx.refuse 400, false)
    | some (key, val) =>
      let params := ctx.request.params.insert (Util.urlDecode true key) (Util.urlDecode true val)
      parseQuery { ctx with request := { ctx.request with params := params } } strs

def parseHttpLine (ctx : HttpContext) (line : Bytes) : Except StdException (HttpContext × Bool) :=
  match matchRequestLine line with
  | none => .ok (ctx.refuse 400, false)
  | some r =>
    parseQuery
      { ctx with
        request := { ctx.request with
          method := r.method.map toUpper
          path := Util.urlDecode false r.path
          version := r.version } }
      (Util.split r.query (ascii "&"))

def recvHttpLine (ctx : HttpContext) (buf : Bytes) : Except StdException (HttpContext × Bytes) :=
  if ctx.recvStatu ≠ .line then .ok (ctx, buf)
  else
    match getLineAndPop buf with
    | ([], rest) => .ok (if rest.length > maxLine then ctx.refuse 414 else ctx, rest)
    | (line, rest) =>
      if line.length > maxLine then .ok (ctx.refuse 414, rest)
      else do
        let (ctx, ok) ← parseHttpLine ctx line
        return (if ok then { ctx with recvStatu := .head } else ctx, rest)

def parseHttpHead (ctx : HttpContext) (line : Bytes) :
    Except StdException (HttpContext × Bool) := do
  match ← cutAt (ascii ": ") (popBack 13 (popBack 10 line)) with
  | none => return (ctx.refuse 400, false)
  | some (key, val) =>
    let headers := ctx.request.headers.insert key val
    return ({ ctx with request := { ctx.request with headers := headers } }, true)

/-- The `while (1)` loop of `RecvHttpHead`, for at most `n` lines.  Each round takes a line off the
buffer, so that there are no more rounds than bytes. -/
def headLoop : Nat → HttpContext → Bytes → Except Abort (HttpContext × Bytes)
  | 0, _, _ => .error .spins
  | n + 1, ctx, buf =>
    match getLineAndPop buf with
    | ([], rest) => .ok (if rest.length > maxLine then ctx.refuse 414 else ctx, rest)
    | (line, rest) =>
      if line.length > maxLine then .ok (ctx.refuse 414, rest)
      else if line = [10] ∨ line = [13, 10] then .ok ({ ctx with recvStatu := .body }, rest)
      else do
        let (ctx, ok) ← raising (parseHttpHead ctx line)
        if ok then headLoop n ctx rest else return (ctx, rest)

def recvHttpHead (ctx : HttpContext) (buf : Bytes) : Except Abort (HttpContext × Bytes) :=
  if ctx.recvStatu ≠ .head then .ok (ctx, buf) else headLoop (buf.length + 1) ctx buf

/-- `if (_request.IsMultipartFormData()) ParseMultipartBody();` -/
def parseIfMultipart (req : HttpRequest) : Except Abort HttpRequest :=
  if req.isMultipartFormData then parseMultipartBody req else .ok req

/-- The body, when `Content-Length` is not 0: what is still missing, or all there is. -/
def recvBodyBytes (ctx : HttpContext) (contentLength : Nat) (buf : Bytes) :
    Except Abort (HttpContext × Bytes) :=
  -- a difference of unsigned numbers
  let realLen := (((contentLength : Int) - ctx.request.body.length) % 2 ^ 64).toNat
  if buf.length ≥ realLen then do
    let request ← parseIfMultipart
      { ctx.request with body := ctx.request.body ++ buf.take realLen }
    return ({ ctx with recvStatu := .over, request := request }, buf.drop realLen)
  else
    return ({ ctx with request := { ctx.request with body := ctx.request.body ++ buf } }, [])

def recvHttpBody (ctx : HttpContext) (buf : Bytes) : Except Abort (HttpContext × Bytes) :=
  if ctx.recvStatu ≠ .body then .ok (ctx, buf)
  else do
    let contentLength ← raising ctx.request.contentLength
    if contentLength = 0 then return ({ ctx with recvStatu := .over }, buf)
    else recvBodyBytes ctx contentLength buf

/-- `RecvHttpRequest`: the `switch` with its fallthroughs. -/
def recvHttpRequest (ctx : HttpContext) (buf : Bytes) : Except Abort (HttpContext × Bytes) :=
  match ctx.recvStatu with
  | .line => do
    let (ctx, buf) ← raising (recvHttpLine ctx buf)
    let (ctx, buf) ← recvHttpHead ctx buf
    recvHttpBody ctx buf
  | .head => do
    let (ctx, buf) ← recvHttpHead ctx buf
    recvHttpBody ctx buf
  | .body => recvHttpBody ctx buf
  | .over | .error => .ok (ctx, buf)

end HttpContext

end OnlineJudge.Net
