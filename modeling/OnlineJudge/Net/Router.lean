/-
# `Router`: a route table that is mounted later

The handlers register their routes with a `Router` (`net/router.cpp`), which is a list;
`Router::Mount` goes through it and puts each route into the table of its method.  A route has a
regular expression, and `Dispatcher` (`net/http.hpp`) tries those of a table in turn.

Every regular expression of the site is made of letters and of groups `(\d+)`.  For these a table is
a table of `RunPattern`s (`dispatcher_mount`).

The expressions are not interpreted any further.  What `std::regex_match` does is modelled for
expressions of that kind only, and `regexOf` says which these are: it gives nothing for any other
one, so a route with such an expression would be in no table that the model speaks of.
-/
import OnlineJudge.Lib.RunPattern
import OnlineJudge.Net.HttpServer

namespace OnlineJudge.Net

open ByteString RunPattern

/-! ## 1. Regular expressions

A part of an expression is a word or a group of digits, as in the patterns of `Lib.RunPattern`.  A
special character that is not part of a group makes the reading fail. -/

/-- The characters that a regular expression does not take as they are. -/
def regexSpecial : Bytes := ascii "^$\\.*+?()[]\x7b\x7d|"

/-- The pattern of a regular expression of letters and groups `(\d+)`; `none` for another one. -/
def regexOf : Bytes → Option (Pattern UInt8)
  | [] => some []
  | 40 :: 92 :: 100 :: 43 :: 41 :: rest => (regexOf rest).map (.run :: ·)
  | b :: rest => if b ∈ regexSpecial then none else (regexOf rest).map (.letter b :: ·)

/-- `std::regex_match` with such an expression: the path, and the groups. -/
def regexMatch (regex : String) (path : Bytes) : Option (List Bytes) :=
  (regexOf (ascii regex)).bind fun pat => (capture isDigit pat path).map (path :: ·)

example : regexMatch "/numbers/(\\d+)" (ascii "/numbers/12345") =
    some [ascii "/numbers/12345", ascii "12345"] := by decide +kernel

/-! ## 2. The router

`Router` is a list with four functions that append to it, one for each method.  The order of the
list is the order of the calls. -/

inductive Method
  | get
  | post
  | put
  | delete
deriving DecidableEq, Repr

/-- `Router::Route`. -/
structure RouterRoute (ε : Type) where
  method : Method
  pattern : String
  handler : Handler ε

structure Router (ε : Type) where
  routes : List (RouterRoute ε)

variable {ε : Type}

namespace HttpServer

def put (server : HttpServer ε) (pattern : Bytes → Option (List Bytes)) (handler : Handler ε) :
    HttpServer ε :=
  { server with putRoute := server.putRoute ++ [⟨pattern, handler⟩] }

def delete (server : HttpServer ε) (pattern : Bytes → Option (List Bytes)) (handler : Handler ε) :
    HttpServer ε :=
  { server with deleteRoute := server.deleteRoute ++ [⟨pattern, handler⟩] }

/-- The route table of a method. -/
def table (server : HttpServer ε) : Method → List (Route ε)
  | .get => server.getRoute
  | .post => server.postRoute
  | .put => server.putRoute
  | .delete => server.deleteRoute

end HttpServer

namespace Router

def get (router : Router ε) (pattern : String) (handler : Handler ε) : Router ε :=
  ⟨router.routes ++ [⟨.get, pattern, handler⟩]⟩

def post (router : Router ε) (pattern : String) (handler : Handler ε) : Router ε :=
  ⟨router.routes ++ [⟨.post, pattern, handler⟩]⟩

def put (router : Router ε) (pattern : String) (handler : Handler ε) : Router ε :=
  ⟨router.routes ++ [⟨.put, pattern, handler⟩]⟩

def delete (router : Router ε) (pattern : String) (handler : Handler ε) : Router ε :=
  ⟨router.routes ++ [⟨.delete, pattern, handler⟩]⟩

/-- What `Mount` does with one route. -/
def mountRoute (server : HttpServer ε) (route : RouterRoute ε) : HttpServer ε :=
  match route.method with
  | .get => server.get (regexMatch route.pattern) route.handler
  | .post => server.post (regexMatch route.pattern) route.handler
  | .put => server.put (regexMatch route.pattern) route.handler
  | .delete => server.delete (regexMatch route.pattern) route.handler

def mount (router : Router ε) (server : HttpServer ε) : HttpServer ε :=
  router.routes.foldl mountRoute server

/-! ## 3. What is mounted

`Mount` appends to the tables in the order of the list, and each table keeps its own routes.  With
this the lookup of the server is the lookup in a table of patterns, about which the library speaks.
-/

/-- The route as the server has it. -/
def toRoute (route : RouterRoute ε) : Route ε := ⟨regexMatch route.pattern, route.handler⟩

theorem table_mountRoute (server : HttpServer ε) (route : RouterRoute ε) (method : Method) :
    (mountRoute server route).table method =
      server.table method ++ if route.method = method then [toRoute route] else [] := by
  obtain ⟨m, pattern, handler⟩ := route
  cases m <;> cases method <;> simp [mountRoute, HttpServer.table, HttpServer.get, HttpServer.post,
    HttpServer.put, HttpServer.delete, toRoute]

/-- **A table has the routes of its method, in the order in which they were registered.** -/
theorem table_mount (router : Router ε) (server : HttpServer ε) (method : Method) :
    (router.mount server).table method =
      server.table method ++
        ((router.routes.filter fun route => route.method = method).map toRoute) := by
  obtain ⟨routes⟩ := router
  show (routes.foldl mountRoute server).table method = _
  induction routes generalizing server with
  | nil => simp
  | cons route routes ih =>
    rw [List.foldl_cons, ih, table_mountRoute, List.append_assoc]
    congr 1
    by_cases hm : route.method = method <;> simp [hm]

theorem mount_frame (router : Router ε) (server : HttpServer ε) :
    (router.mount server).files = server.files ∧
      (router.mount server).basedir = server.basedir := by
  obtain ⟨routes⟩ := router
  show (routes.foldl mountRoute server).files = _ ∧ (routes.foldl mountRoute server).basedir = _
  induction routes generalizing server with
  | nil => exact ⟨rfl, rfl⟩
  | cons route routes ih =>
    obtain ⟨hfiles, hbasedir⟩ := ih (mountRoute server route)
    rw [List.foldl_cons, hfiles, hbasedir]
    obtain ⟨m, pattern, handler⟩ := route
    cases m <;> exact ⟨rfl, rfl⟩

/-- The rows of a list of routes. -/
def rows (routes : List (RouterRoute ε)) : List (Pattern UInt8 × Handler ε) :=
  routes.filterMap fun route => (regexOf (ascii route.pattern)).map fun pat => (pat, route.handler)

/-- **`Dispatcher` looks the path up** in the patterns of the table, and calls the handler with the
path and what the groups have caught. -/
theorem dispatcher_map_toRoute (req : HttpRequest) (routes : List (RouterRoute ε)) :
    HttpServer.dispatcher req (routes.map toRoute) =
      match lookup isDigit (rows routes) req.path with
      | some (handler, captures) => handler req (req.path :: captures)
      | none => modify fun rsp => { rsp with statu := 404 } := by
  induction routes with
  | nil => rfl
  | cons route routes ih =>
    rw [List.map_cons, HttpServer.dispatcher]
    simp only [toRoute, regexMatch, rows, List.filterMap_cons]
    cases hregex : regexOf (ascii route.pattern) with
    | none => exact ih
    | some pat =>
      simp only [Option.bind_some, Option.map_some, lookup, List.findSome?_cons]
      cases hcapture : capture isDigit pat req.path with
      | none => exact ih
      | some captures => rfl

end Router

end OnlineJudge.Net
