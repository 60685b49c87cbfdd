import Mathlib.Data.List.AList
import HighSpeed.Http.Message

/-!
The round trip of `protocol/Http.hpp`: `parse_from_string` reads back what `serialize_to_string`
writes. The serializer writes the start line, one `k: v` line per header in the map's iteration
order, a blank line and the body; the parser finds the first line break and the first blank line
in the whole text, so the round trip holds exactly when nothing the serializer copies can fake
one of them or the separators the parser splits a line on.
-/

namespace HighSpeed

namespace HttpMessage

section
@[local simp]
def headerText (entry : Sigma fun _ : List Char => List Char) : List Char :=
  entry.1 ++ ':' :: ' ' :: entry.2

@[local simp]
def startLine (message : HttpMessage) : List Char :=
  methodToStr message.method ++ ' ' :: message.url ++ ' ' :: versionToStr message.version
end

structure HeaderFits (entry : Sigma fun _ : List Char => List Char) : Prop where
  keyColon : ':' ∉ entry.1
  keyReturn : '\r' ∉ entry.1
  keyNewline : '\n' ∉ entry.1
  valueReturn : '\r' ∉ entry.2
  valueNewline : '\n' ∉ entry.2
  valueSpace : entry.2.head? ≠ some ' '

structure Serializable (message : HttpMessage) : Prop where
  version : message.version ≠ .UNKNOWN
  url : message.url ≠ []
  urlWord : ∀ c ∈ message.url, CxxString.isspace c = false
  headers : message.headers.entries ≠ []
  headerFits : ∀ entry ∈ message.headers.entries, HeaderFits entry

/-! ## One header line -/

section HeaderLine

variable {entry : Sigma fun _ : List Char => List Char}

theorem HeaderFits.noReturn (fits : HeaderFits entry) : '\r' ∉ headerText entry := by
  simp only [headerText, List.mem_append, List.mem_cons, not_or]
  exact ⟨fits.keyReturn, by decide, by decide, fits.valueReturn⟩

theorem HeaderFits.noNewline (fits : HeaderFits entry) : '\n' ∉ headerText entry := by
  simp only [headerText, List.mem_append, List.mem_cons, not_or]
  exact ⟨fits.keyNewline, by decide, by decide, fits.valueNewline⟩

theorem HeaderFits.append_ne (fits : HeaderFits entry) (rest more : List Char) :
    headerText entry ++ rest ≠ '\r' :: more := by
  intro starts
  cases text : headerText entry with
  | nil => simp [headerText] at text
  | cons c line =>
      rw [text, List.cons_append, List.cons.injEq] at starts
      exact fits.noReturn (by rw [text, starts.1]; exact List.mem_cons_self)

theorem HeaderFits.not_endsReturn (fits : HeaderFits entry) :
    ¬(headerText entry ≠ [] ∧ (headerText entry).getLast? = some '\r') :=
  fun ⟨_, last⟩ => fits.noReturn (List.mem_of_getLast? last)

theorem HeaderFits.parseHeaderLine_headerText (fits : HeaderFits entry) (headers : HeaderMap) :
    parseHeaderLine headers (headerText entry) = headers.insert entry.1 entry.2 := by
  have kept := fits.not_endsReturn
  have colon : CxxString.find (headerText entry) [':'] = some entry.1.length :=
    CxxString.find_append_of_not_mem fits.keyColon ⟨_, rfl⟩
  have key : CxxString.substr (headerText entry) 0 entry.1.length = entry.1 := by
    simp [CxxString.substr, headerText]
  have value : ((headerText entry).drop (entry.1.length + 1)).dropWhile (· = ' ') = entry.2 := by
    have after : (headerText entry).drop (entry.1.length + 1) = ' ' :: entry.2 := by
      simp [headerText]
    rw [after]
    cases valued : entry.2 with
    | nil => rfl
    | cons c more =>
        have notSpace : c ≠ ' ' := fun same => fits.valueSpace (by rw [valued, same]; rfl)
        simp [notSpace]
  simp only [HttpMessage.parseHeaderLine, kept, if_false, colon, key, value]

theorem HeaderFits.parseHeaderLine_headerText_return (fits : HeaderFits entry)
    (headers : HeaderMap) :
    parseHeaderLine headers (headerText entry ++ ['\r']) = headers.insert entry.1 entry.2 := by
  have dropped :
      headerText entry ++ ['\r'] ≠ [] ∧ (headerText entry ++ ['\r']).getLast? = some '\r' :=
    ⟨by simp, by simp⟩
  rw [← fits.parseHeaderLine_headerText headers]
  simp only [HttpMessage.parseHeaderLine]
  rw [if_pos dropped, if_neg fits.not_endsReturn, List.dropLast_concat]

end HeaderLine

/-! ## The header block -/

section
@[local simp]
def headerBlock (entries : List (Sigma fun _ : List Char => List Char)) : List Char :=
  lineSep.intercalate (entries.map headerText)
end

theorem headerBlock_singleton (entry : Sigma fun _ : List Char => List Char) :
    headerBlock [entry] = headerText entry := by
  simp [headerBlock]

theorem headerBlock_cons_cons (entry next : Sigma fun _ : List Char => List Char)
    (entries : List (Sigma fun _ : List Char => List Char)) :
    headerBlock (entry :: next :: entries) =
      headerText entry ++ '\r' :: '\n' :: headerBlock (next :: entries) := by
  simp [headerBlock, lineSep]

theorem headerBlock_cons (entry : Sigma fun _ : List Char => List Char)
    (entries : List (Sigma fun _ : List Char => List Char)) :
    ∃ tail, headerBlock (entry :: entries) = headerText entry ++ tail := by
  cases entries with
  | nil => exact ⟨[], by rw [headerBlock_singleton, List.append_nil]⟩
  | cons next entries => exact ⟨_, headerBlock_cons_cons entry next entries⟩

theorem headerLine_eq (entry : Sigma fun _ : List Char => List Char) :
    headerLine entry = headerText entry ++ lineSep := by
  simp [headerLine, headerText]

theorem flatMap_headerLine (entry : Sigma fun _ : List Char => List Char)
    (entries : List (Sigma fun _ : List Char => List Char)) :
    (entry :: entries).flatMap headerLine = headerBlock (entry :: entries) ++ lineSep := by
  induction entries generalizing entry with
  | nil => rw [List.flatMap_singleton, headerBlock_singleton, headerLine_eq]
  | cons next entries ih =>
      rw [List.flatMap_cons, ih next, headerBlock_cons_cons, headerLine_eq]
      simp [lineSep]

section Block

variable {entry : Sigma fun _ : List Char => List Char}
  {entries : List (Sigma fun _ : List Char => List Char)}

theorem headerBlock_append_ne (fits : HeaderFits entry) (rest more : List Char) :
    headerBlock (entry :: entries) ++ rest ≠ '\r' :: more := by
  obtain ⟨tail, starts⟩ := headerBlock_cons entry entries
  rw [starts, List.append_assoc]
  exact fits.append_ne _ more

theorem find_blankLine_headerBlock (fits : ∀ x ∈ entry :: entries, HeaderFits x)
    (body : List Char) :
    CxxString.find (headerBlock (entry :: entries) ++ '\r' :: '\n' :: '\r' :: '\n' :: body)
      ['\r', '\n', '\r', '\n'] = some (headerBlock (entry :: entries)).length := by
  induction entries generalizing entry with
  | nil =>
      rw [headerBlock_singleton]
      exact CxxString.find_append_of_not_mem (fits entry List.mem_cons_self).noReturn
        ⟨body, rfl⟩
  | cons next entries ih =>
      have first := fits entry List.mem_cons_self
      have rest : ∀ x ∈ next :: entries, HeaderFits x :=
        fun x member => fits x (List.mem_cons_of_mem entry member)
      rw [headerBlock_cons_cons, List.append_assoc, List.cons_append, List.cons_append,
        CxxString.find_blankLine_skip first.noReturn
          (headerBlock_append_ne (rest next List.mem_cons_self) _), ih rest, Option.map_some]
      simp only [List.length_append, List.length_cons]
      congr 1
      omega

theorem foldl_getlines_headerBlock (fits : ∀ x ∈ entry :: entries, HeaderFits x)
    (headers : HeaderMap) :
    (CxxString.getlines (headerBlock (entry :: entries))).foldl parseHeaderLine headers =
      (entry :: entries).foldl (fun headers x => headers.insert x.1 x.2) headers := by
  induction entries generalizing entry headers with
  | nil =>
      have first := fits entry List.mem_cons_self
      have oneLine := CxxString.getlinesFrom_append first.noNewline [] []
      rw [List.append_nil, List.nil_append,
        CxxString.getlinesFrom_nil_of_ne (by simp [headerText])] at oneLine
      rw [headerBlock_singleton, CxxString.getlines, oneLine, List.foldl_cons, List.foldl_nil,
        first.parseHeaderLine_headerText, List.foldl_cons, List.foldl_nil]
  | cons next entries ih =>
      have first := fits entry List.mem_cons_self
      have rest : ∀ x ∈ next :: entries, HeaderFits x :=
        fun x member => fits x (List.mem_cons_of_mem entry member)
      have split : headerText entry ++ '\r' :: '\n' :: headerBlock (next :: entries) =
          (headerText entry ++ ['\r']) ++ '\n' :: headerBlock (next :: entries) := by simp
      have noNewline : '\n' ∉ headerText entry ++ ['\r'] := by simp [first.noNewline]
      rw [headerBlock_cons_cons, CxxString.getlines, split,
        CxxString.getlinesFrom_append noNewline, List.nil_append, CxxString.getlinesFrom_newline,
        List.foldl_cons, first.parseHeaderLine_headerText_return, List.foldl_cons]
      exact ih rest _

end Block

theorem lookup_foldl_insert (key : List Char) :
    ∀ (entries : List (Sigma fun _ : List Char => List Char)) (headers : HeaderMap),
      entries.NodupKeys →
        (entries.foldl (fun headers x => headers.insert x.1 x.2) headers).lookup key =
          (entries.dlookup key).or (headers.lookup key) := by
  intro entries
  induction entries with
  | nil => intro headers _; rfl
  | cons entry entries ih =>
      intro headers distinct
      obtain ⟨absent, distinctRest⟩ := List.nodupKeys_cons.mp distinct
      obtain ⟨name, value⟩ := entry
      rw [List.foldl_cons, ih _ distinctRest]
      by_cases same : key = name
      · -- the later headers have other keys
        subst same
        rw [List.dlookup_eq_none.mpr absent, AList.lookup_insert, List.dlookup_cons_eq]
        rfl
      · rw [AList.lookup_insert_ne same, List.dlookup_cons_ne _ _ same]

/-! ## The start line -/

theorem parseMethod_methodToStr (method : HttpMethod) :
    parseMethod (methodToStr method) = method := by
  cases method <;> rfl

theorem parseVersion_versionToStr {version : HttpVersion} (known : version ≠ .UNKNOWN) :
    parseVersion (versionToStr version) = version := by
  cases version <;> first | rfl | exact absurd rfl known

theorem word_of_all {text : List Char} (all : (text.all fun c => !CxxString.isspace c) = true) :
    ∀ c ∈ text, CxxString.isspace c = false := by
  intro c member
  simpa using List.all_eq_true.mp all c member

theorem methodToStr_word (method : HttpMethod) :
    ∀ c ∈ methodToStr method, CxxString.isspace c = false :=
  word_of_all (by cases method <;> decide)

theorem versionToStr_word (version : HttpVersion) :
    ∀ c ∈ versionToStr version, CxxString.isspace c = false :=
  word_of_all (by cases version <;> decide)

theorem methodToStr_ne_nil (method : HttpMethod) : methodToStr method ≠ [] := by
  cases method <;> decide

theorem versionToStr_ne_nil (version : HttpVersion) : versionToStr version ≠ [] := by
  cases version <;> decide

theorem not_mem_of_word {text : List Char} (word : ∀ c ∈ text, CxxString.isspace c = false)
    {c : Char} (space : CxxString.isspace c = true) : c ∉ text := by
  intro member
  rw [word c member] at space
  exact Bool.false_ne_true space

section StartLine

variable {message : HttpMessage}

theorem Serializable.startLine_noReturn (serializable : message.Serializable) :
    '\r' ∉ startLine message := by
  have returnSpace : CxxString.isspace '\r' = true := by decide
  simp only [startLine, List.mem_append, List.mem_cons, not_or]
  exact ⟨⟨not_mem_of_word (methodToStr_word _) returnSpace, by decide,
    not_mem_of_word serializable.urlWord returnSpace⟩, by decide,
    not_mem_of_word (versionToStr_word _) returnSpace⟩

theorem Serializable.words_startLine (serializable : message.Serializable) :
    CxxString.words (startLine message) =
      [methodToStr message.method, message.url, versionToStr message.version] := by
  have blank : CxxString.isspace ' ' = true := by decide
  have versionWord := CxxString.wordsFrom_append (versionToStr_word message.version) [] []
  rw [List.append_nil, List.nil_append,
    CxxString.wordsFrom_nil_of_ne (versionToStr_ne_nil _)] at versionWord
  rw [startLine, CxxString.words, List.append_assoc, List.cons_append,
    CxxString.wordsFrom_append (methodToStr_word _), List.nil_append,
    CxxString.wordsFrom_space blank (methodToStr_ne_nil _),
    CxxString.wordsFrom_append serializable.urlWord, List.nil_append,
    CxxString.wordsFrom_space blank serializable.url, versionWord]

end StartLine

/-! ## The round trip -/

theorem serializeToString_eq {message : HttpMessage} {entry entries}
    (listed : message.headers.entries = entry :: entries) :
    serializeToString message = startLine message ++ '\r' :: '\n' ::
      (headerBlock (entry :: entries) ++ '\r' :: '\n' :: '\r' :: '\n' :: message.body) := by
  rw [serializeToString, listed, flatMap_headerLine]
  simp [startLine, lineSep]

/-- What `serialize_to_string` writes, `parse_from_string` reads back: the same start line, a
header map with the same lookups, and the same body, from any message the parse starts on. The
hypotheses are what the serializer cannot escape: the words and lines it writes must not hold
the separators the parser splits on, and the text must fit the 64-bit `size_t` arithmetic of
`header_end - header_start`. -/
theorem parseFromString_serializeToString (fresh message : HttpMessage)
    (serializable : message.Serializable) (fits : (serializeToString message).length < 2 ^ 64) :
    ∃ headers : HeaderMap, parseFromString fresh (serializeToString message) =
        (true, ⟨message.method, message.version, message.url, headers, message.body⟩) ∧
      ∀ key, headers.lookup key = message.headers.lookup key := by
  obtain ⟨entry, entries, listed⟩ := List.exists_cons_of_ne_nil serializable.headers
  have lineFits : ∀ x ∈ entry :: entries, HeaderFits x := listed ▸ serializable.headerFits
  have text := serializeToString_eq listed
  have small : (headerBlock (entry :: entries)).length < 2 ^ 64 := by
    rw [text] at fits
    simp only [List.length_append, List.length_cons] at fits
    omega
  have lineBreak : CxxString.find (serializeToString message) lineSep =
      some (startLine message).length := by
    rw [text]
    exact CxxString.find_append_of_not_mem serializable.startLine_noReturn ⟨_, rfl⟩
  have blank : CxxString.find (serializeToString message) ['\r', '\n', '\r', '\n'] =
      some ((headerBlock (entry :: entries)).length + ((startLine message).length + 2)) := by
    rw [text, CxxString.find_blankLine_skip serializable.startLine_noReturn
      (headerBlock_append_ne (lineFits entry List.mem_cons_self) _),
      find_blankLine_headerBlock lineFits, Option.map_some]
  have start : CxxString.substr (serializeToString message) 0 (startLine message).length =
      startLine message := by
    rw [text]
    simp [CxxString.substr]
  have width : ((headerBlock (entry :: entries)).length + ((startLine message).length + 2) +
      2 ^ 64 - ((startLine message).length + lineSep.length)) % 2 ^ 64 =
      (headerBlock (entry :: entries)).length := by
    simp only [lineSep, List.length_cons, List.length_nil]
    omega
  have block : CxxString.substr (serializeToString message)
      ((startLine message).length + lineSep.length) (headerBlock (entry :: entries)).length =
      headerBlock (entry :: entries) := by
    rw [text, CxxString.substr, show lineSep.length = 2 from rfl, List.drop_length_add_append]
    exact List.take_left
  have body : (serializeToString message).drop ((headerBlock (entry :: entries)).length +
      ((startLine message).length + 2) + lineSep.length * 2) = message.body := by
    have index : (headerBlock (entry :: entries)).length + ((startLine message).length + 2) +
        lineSep.length * 2 =
        (startLine message).length + ((headerBlock (entry :: entries)).length + 4 + 1 + 1) := by
      simp only [lineSep, List.length_cons, List.length_nil]
      omega
    rw [text, index, List.drop_length_add_append, List.drop_succ_cons, List.drop_succ_cons,
      List.drop_length_add_append]
    rfl
  refine ⟨(entry :: entries).foldl (fun headers x => headers.insert x.1 x.2) ∅, ?_,
    fun key => ?_⟩
  · simp only [parseFromString, lineBreak, blank, start, serializable.words_startLine,
      List.getD_cons_zero, List.getD_cons_succ, width, block, body,
      foldl_getlines_headerBlock lineFits, parseMethod_methodToStr,
      parseVersion_versionToStr serializable.version]
  · have distinct : (entry :: entries).NodupKeys := listed ▸ message.headers.nodupKeys
    rw [lookup_foldl_insert key _ ∅ distinct, AList.lookup_empty, Option.or_none]
    simp [AList.lookup, listed]

theorem parseFromString_serializeToString_get :
    ∃ headers : HeaderMap,
      parseFromString ⟨.UNKNOWN, .UNKNOWN, [], ∅, []⟩ (serializeToString
          ⟨.GET, .HTTP_1_1, "/index".toList, (∅ : HeaderMap).insert "Host".toList "a".toList,
            "hi".toList⟩) =
        (true, ⟨.GET, .HTTP_1_1, "/index".toList, headers, "hi".toList⟩) ∧
      ∀ key, headers.lookup key =
        ((∅ : HeaderMap).insert "Host".toList "a".toList).lookup key :=
  parseFromString_serializeToString _ _
    ⟨by decide, by decide, word_of_all (by decide), by decide, fun entry member => by
      simp only [AList.entries_insert, AList.empty_entries, List.kerase_nil,
        List.mem_singleton] at member
      subst member
      exact ⟨by decide, by decide, by decide, by decide, by decide, by decide⟩⟩
    (by decide)

end HttpMessage

end HighSpeed
