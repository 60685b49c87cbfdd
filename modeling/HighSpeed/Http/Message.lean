import Mathlib.Algebra.Group.Nat.Defs
import HighSpeed.Lib.CxxString

/-!
`HttpMessage` of `protocol/Http.hpp`: the start line, the header map and the body, the
serializer `serialize_to_string` and the parser `parse_from_string`.
-/

namespace HighSpeed

inductive HttpMethod where
  | GET | POST | PUT | DELETE | HEAD | OPTIONS | TRACE | CONNECT | PATCH | UNKNOWN
  deriving DecidableEq, Repr

inductive HttpVersion where
  | HTTP_1_0 | HTTP_1_1 | HTTP_2_0 | UNKNOWN
  deriving DecidableEq, Repr

abbrev HeaderMap := AList fun _ : List Char => List Char

structure HttpMessage where
  method : HttpMethod
  version : HttpVersion
  url : List Char
  headers : HeaderMap
  body : List Char

namespace HttpMessage

def parseMethod (s : List Char) : HttpMethod :=
  if s = "GET".toList then .GET
  else if s = "POST".toList then .POST
  else if s = "PUT".toList then .PUT
  else if s = "DELETE".toList then .DELETE
  else if s = "HEAD".toList then .HEAD
  else if s = "OPTIONS".toList then .OPTIONS
  else if s = "TRACE".toList then .TRACE
  else if s = "CONNECT".toList then .CONNECT
  else if s = "PATCH".toList then .PATCH
  else .UNKNOWN

def parseVersion (s : List Char) : HttpVersion :=
  if s = "HTTP/1.0".toList then .HTTP_1_0
  else if s = "HTTP/1.1".toList then .HTTP_1_1
  else if s = "HTTP/2.0".toList then .HTTP_2_0
  else .UNKNOWN

def versionToStr : HttpVersion → List Char
  | .HTTP_1_0 => "HTTP/1.0".toList
  | .HTTP_1_1 => "HTTP/1.1".toList
  | .HTTP_2_0 => "HTTP/2.0".toList
  | .UNKNOWN => "HTTP/1.1".toList

def methodToStr : HttpMethod → List Char
  | .GET => "GET".toList
  | .POST => "POST".toList
  | .PUT => "PUT".toList
  | .DELETE => "DELETE".toList
  | .HEAD => "HEAD".toList
  | .OPTIONS => "OPTIONS".toList
  | .TRACE => "TRACE".toList
  | .CONNECT => "CONNECT".toList
  | .PATCH => "PATCH".toList
  | .UNKNOWN => "UNKNOWN".toList

section
@[local simp]
def lineSep : List Char := ['\r', '\n']
end

def headerLine (entry : Sigma fun _ : List Char => List Char) : List Char :=
  entry.1 ++ ':' :: ' ' :: entry.2 ++ lineSep

def serializeToString (message : HttpMessage) : List Char :=
  methodToStr message.method ++ ' ' :: message.url ++ ' ' :: versionToStr message.version ++
    lineSep ++ message.headers.entries.flatMap headerLine ++ lineSep ++ message.body

section
@[local simp]
def parseHeaderLine (headers : HeaderMap) (line : List Char) : HeaderMap :=
  let line := if line ≠ [] ∧ line.getLast? = some '\r' then line.dropLast else line
  match CxxString.find line [':'] with
  | none => headers
  | some colon =>
      let key := CxxString.substr line 0 colon
      let value := (line.drop (colon + 1)).dropWhile (· = ' ')
      headers.insert key value

@[local simp]
def parseFromString (message : HttpMessage) (data : List Char) : Bool × HttpMessage :=
  match CxxString.find data lineSep with
  | none => (false, message)
  | some pos =>
      let startLine := CxxString.substr data 0 pos
      let fields := CxxString.words startLine
      let message := { message with
        method := parseMethod (fields.getD 0 [])
        url := fields.getD 1 []
        version := parseVersion (fields.getD 2 []) }
      let headerStart := pos + lineSep.length
      match CxxString.find data ['\r', '\n', '\r', '\n'] with
      | none => (false, message)
      | some headerEnd =>
          let headerBlock := CxxString.substr data headerStart
            ((headerEnd + 2 ^ 64 - headerStart) % 2 ^ 64)
          let headers := (CxxString.getlines headerBlock).foldl parseHeaderLine ∅
          (true, { message with
            headers := headers
            body := data.drop (headerEnd + lineSep.length * 2) })
end

theorem parseFromString_flag (first second : HttpMessage) (data : List Char) :
    (parseFromString first data).1 = (parseFromString second data).1 := by
  unfold parseFromString
  split
  · rfl
  · split <;> rfl

theorem parseFromString_overwrites (first second : HttpMessage) (data : List Char)
    (parsed : (parseFromString first data).1 = true) :
    parseFromString first data = parseFromString second data := by
  unfold parseFromString at parsed ⊢
  cases found : CxxString.find data lineSep with
  | none => simp [found] at parsed
  | some pos =>
      cases ended : CxxString.find data ['\r', '\n', '\r', '\n'] with
      | none => simp [found, ended] at parsed
      | some headerEnd => simp

/-- A message with no headers and the body `a:b` reads back with the header `a: b`: the header
block runs from after the start line to the end of the text, body included. -/
theorem parseFromString_emptyHeaders_bodyHeader (fresh : HttpMessage) :
    (parseFromString fresh
      (serializeToString ⟨.GET, .HTTP_1_1, "/".toList, ∅, "a:b".toList⟩)).2.headers.lookup
        "a".toList = some "b".toList := by
  have parsed : (parseFromString fresh
      (serializeToString ⟨.GET, .HTTP_1_1, "/".toList, ∅, "a:b".toList⟩)).1 = true := by
    rw [parseFromString_flag fresh ⟨.GET, .HTTP_1_1, "/".toList, ∅, "a:b".toList⟩]
    decide +kernel
  rw [parseFromString_overwrites fresh ⟨.GET, .HTTP_1_1, "/".toList, ∅, "a:b".toList⟩ _ parsed]
  decide +kernel

theorem parseFromString_failed_keeps_headers_body (message : HttpMessage) (data : List Char)
    (failed : (parseFromString message data).1 = false) :
    (parseFromString message data).2.headers = message.headers ∧
      (parseFromString message data).2.body = message.body := by
  unfold parseFromString at failed ⊢
  cases found : CxxString.find data lineSep with
  | none => exact ⟨rfl, rfl⟩
  | some pos =>
      cases ended : CxxString.find data ['\r', '\n', '\r', '\n'] with
      | none => exact ⟨rfl, rfl⟩
      | some headerEnd => simp [found, ended] at failed

theorem parseFromString_iff_blankLine (message : HttpMessage) (data : List Char) :
    (parseFromString message data).1 = true ↔ ['\r', '\n', '\r', '\n'] <:+: data := by
  rw [← CxxString.find_isSome_iff]
  have lineBreak : ['\r', '\n', '\r', '\n'] <:+: data → lineSep <:+: data :=
    fun blank => (List.prefix_append lineSep ['\r', '\n']).isInfix.trans blank
  unfold parseFromString
  cases found : CxxString.find data lineSep with
  | none =>
      have noBreak : ¬ lineSep <:+: data := by
        rw [← CxxString.find_isSome_iff, found]
        exact Bool.false_ne_true
      simp only [Bool.false_eq_true, false_iff]
      rw [CxxString.find_isSome_iff]
      exact fun blank => noBreak (lineBreak blank)
  | some pos =>
      cases ended : CxxString.find data ['\r', '\n', '\r', '\n'] with
      | none => simp
      | some headerEnd => simp

/-- A request whose headers have not all arrived: the parse fails, and the message it leaves has
the method, URL and version of the new start line in place of its own. -/
theorem parseFromString_partial_overwrites_startLine :
    ∃ result, parseFromString ⟨.GET, .HTTP_1_1, "/".toList, ∅, []⟩
        "POST /upload HTTP/1.0\r\nHost: a".toList = result ∧
      result.1 = false ∧ result.2.method = .POST ∧ result.2.url = "/upload".toList ∧
      result.2.version = .HTTP_1_0 :=
  ⟨_, rfl, by decide +kernel⟩

end HttpMessage

end HighSpeed
