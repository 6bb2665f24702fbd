import Mathlib.Data.List.Basic
import Mathlib.Data.List.TakeWhile
/-!
# Request targets

The targets a client may put into a request line (origin form, absolute form, asterisk form), their
text, and what a URL parser finds in it. `split` is such a parser, to show that there is one
(`split_render`); a development about a program with a parser of its own takes that parser as an
arbitrary function with `split_render`'s equation as its specification.
-/

inductive RequestTarget where
  | origin (path : String) (query : Option String)
  | absolute (scheme host : String) (port : Option String) (path : String) (query : Option String)
  | asterisk
deriving DecidableEq, Repr

namespace RequestTarget

/-! ## Text -/

def queryText : Option String → String
  | none => ""
  | some query => "?" ++ query

def portText : Option String → String
  | none => ""
  | some port => ":" ++ port

def render : RequestTarget → String
  | origin path query => path ++ queryText query
  | absolute scheme host port path query =>
    scheme ++ "://" ++ host ++ portText port ++ path ++ queryText query
  | asterisk => "*"

/-! ## Well-formed targets -/

/-- The character ends the authority of an absolute form. -/
def isDelim (c : Char) : Bool := c = '/' || c = '?' || c = '#'

/-- The character ends a path. -/
def endsPath (c : Char) : Bool := c = '?' || c = '#'

def PathOk (path : String) : Prop := ∀ c ∈ path.toList, endsPath c = false

def QueryOk (query : Option String) : Prop := ∀ q, query = some q → '#' ∉ q.toList

/-- A name, an address, or a literal in brackets. -/
structure HostOk (host : String) : Prop where
  nonempty : host ≠ ""
  delims : ∀ c ∈ host.toList, isDelim c = false
  colons : (':' ∉ host.toList ∧ host.toList.head? ≠ some '[') ∨
    ∃ literal, host.toList = '[' :: literal ++ [']'] ∧ ']' ∉ literal

def PortOk (port : Option String) : Prop := ∀ p, port = some p → ∀ c ∈ p.toList, c.isDigit = true

inductive WellFormed : RequestTarget → Prop
  | origin {path query} (hslash : path.toList.head? = some '/') (hpath : PathOk path)
      (hquery : QueryOk query) : WellFormed (origin path query)
  | absolute {scheme host port path query} (hscheme : scheme ≠ "")
      (hletters : ∀ c ∈ scheme.toList, c.isAlphanum = true) (hhost : HostOk host)
      (hport : PortOk port) (hslash : path ≠ "" → path.toList.head? = some '/')
      (hpath : PathOk path) (hquery : QueryOk query) :
      WellFormed (absolute scheme host port path query)
  | asterisk : WellFormed asterisk

/-! ## What a parser finds -/

structure Parts where
  host : String
  path : String
  query : String
deriving DecidableEq, Repr

def parts : RequestTarget → Parts
  | origin path query => ⟨"", path, query.getD ""⟩
  | absolute _ host _ path query => ⟨host, path, query.getD ""⟩
  | asterisk => ⟨"", "*", ""⟩

def splitQuery : List Char → List Char
  | '?' :: query => query.takeWhile fun c => c != '#'
  | _ => []

def splitPath (host : List Char) (cs : List Char) : Parts where
  host := String.ofList host
  path := String.ofList (cs.takeWhile fun c => !endsPath c)
  query := String.ofList (splitQuery (cs.dropWhile fun c => !endsPath c))

def splitHost (authority : List Char) : List Char :=
  match authority with
  | '[' :: _ => authority.takeWhile (fun c => c != ']') ++ [']']
  | _ => authority.takeWhile fun c => c != ':'

def splitAuthority (cs : List Char) : Parts :=
  splitPath (splitHost (cs.takeWhile fun c => !isDelim c)) (cs.dropWhile fun c => !isDelim c)

def split (s : String) : Parts :=
  match s.toList with
  | '/' :: _ | ['*'] => splitPath [] s.toList
  | cs => splitAuthority ((cs.dropWhile fun c => c != ':').drop 3)

/-! ## The round trip -/

section
variable {α : Type*} {p : α → Bool} {xs ys : List α}

/-- A prefix all of which passes, up to something that does not. -/
theorem takeWhile_upto (hxs : ∀ x ∈ xs, p x = true) (hys : ∀ y, ys.head? = some y → p y = false) :
    (xs ++ ys).takeWhile p = xs ∧ (xs ++ ys).dropWhile p = ys := by
  rw [List.takeWhile_append_of_pos hxs, List.dropWhile_append_of_pos hxs]
  cases ys with
  | nil => simp
  | cons y ys => simp [hys y rfl]

end

theorem toList_queryText_head {query : Option String} {c : Char}
    (h : (queryText query).toList.head? = some c) : c = '?' := by
  cases query with
  | none => cases h
  | some q =>
    rw [queryText, String.toList_append] at h
    exact (Option.some.inj h).symm

theorem splitQuery_queryText {query : Option String} (h : QueryOk query) :
    String.ofList (splitQuery (queryText query).toList) = query.getD "" := by
  cases query with
  | none => rfl
  | some q =>
    have hq : q.toList.takeWhile (fun c => c != '#') = q.toList := by
      rw [List.takeWhile_eq_self_iff]
      intro c hc
      simp only [bne_iff_ne, ne_eq]
      rintro rfl
      exact h q rfl hc
    rw [queryText, String.toList_append]
    show String.ofList (q.toList.takeWhile fun c => c != '#') = q
    rw [hq, String.ofList_toList]

theorem splitPath_render {host : List Char} {path : String} {query : Option String}
    (hpath : PathOk path) (hquery : QueryOk query) :
    splitPath host (path ++ queryText query).toList = ⟨String.ofList host, path, query.getD ""⟩ := by
  have hsplit := @takeWhile_upto Char (fun c => !endsPath c) path.toList (queryText query).toList
    (fun c hc => by simp [hpath c hc]) (fun c hc => by simp [toList_queryText_head hc, endsPath])
  rw [splitPath, String.toList_append, hsplit.1, hsplit.2, splitQuery_queryText hquery,
    String.ofList_toList]

/-- A name or an address ends at the first colon. -/
theorem splitHost_of_no_colon {host rest : List Char} (hne : host ≠ []) (hcolon : ':' ∉ host)
    (hhead : host.head? ≠ some '[') (hrest : ∀ c, rest.head? = some c → c = ':') :
    splitHost (host ++ rest) = host := by
  have hupto := @takeWhile_upto Char (fun c => c != ':') host rest
    (fun c hc => by
      simp only [bne_iff_ne, ne_eq]
      rintro rfl
      exact hcolon hc)
    (fun c hc => by simp [hrest c hc])
  unfold splitHost
  split
  · rename_i cs hcs
    refine absurd ?_ hhead
    cases host with
    | nil => exact absurd rfl hne
    | cons c cs' =>
      rw [List.cons_append] at hcs
      rw [(List.cons.inj hcs).1]
      rfl
  · exact hupto.1

/-- A literal in brackets ends at the bracket, whatever colons it has. -/
theorem splitHost_of_brackets {literal : List Char} (hbracket : ']' ∉ literal) (rest : List Char) :
    splitHost ('[' :: literal ++ [']'] ++ rest) = '[' :: literal ++ [']'] := by
  have hupto := @takeWhile_upto Char (fun c => c != ']') ('[' :: literal) (']' :: rest)
    (fun c hc => by
      simp only [bne_iff_ne, ne_eq]
      rintro rfl
      rcases List.mem_cons.1 hc with hc | hc
      · exact absurd hc (by decide)
      · exact hbracket hc)
    (fun c hc => by simp [← Option.some.inj hc])
  rw [List.append_assoc, List.singleton_append]
  show ('[' :: literal ++ ']' :: rest).takeWhile (fun c => c != ']') ++ [']'] = _
  rw [hupto.1]

theorem splitHost_render {host : String} {port : Option String} (hhost : HostOk host) :
    splitHost (host ++ portText port).toList = host.toList := by
  rw [String.toList_append]
  rcases hhost.colons with ⟨hcolon, hhead⟩ | ⟨literal, hliteral, hbracket⟩
  · have hne : host.toList ≠ [] := fun h => hhost.nonempty (String.toList_eq_nil_iff.1 h)
    refine splitHost_of_no_colon hne hcolon hhead fun c hc => ?_
    cases port with
    | none => cases hc
    | some q =>
      rw [portText, String.toList_append] at hc
      exact (Option.some.inj hc).symm
  · rw [hliteral]
    exact splitHost_of_brackets hbracket _

theorem splitAuthority_render {host : String} {port : Option String} {path : String}
    {query : Option String} (hhost : HostOk host) (hport : PortOk port)
    (hslash : path ≠ "" → path.toList.head? = some '/') (hpath : PathOk path)
    (hquery : QueryOk query) :
    splitAuthority (host ++ portText port ++ (path ++ queryText query)).toList =
      ⟨host, path, query.getD ""⟩ := by
  have hall : ∀ c ∈ (host ++ portText port).toList, (!isDelim c) = true := by
    intro c hc
    rw [String.toList_append] at hc
    rw [Bool.not_eq_true']
    rcases List.mem_append.1 hc with hc | hc
    · exact hhost.delims c hc
    · cases port with
      | none => cases hc
      | some q =>
        rw [portText, String.toList_append] at hc
        rcases List.mem_cons.1 hc with rfl | hc
        · decide
        · have hdigit := hport q rfl c hc
          by_contra hdelim
          simp only [isDelim, Bool.not_eq_false, Bool.or_eq_true, decide_eq_true_eq] at hdelim
          rcases hdelim with (rfl | rfl) | rfl <;> revert hdigit <;> decide
  have hnext : ∀ c, (path ++ queryText query).toList.head? = some c → (!isDelim c) = false := by
    intro c hc
    rw [String.toList_append] at hc
    by_cases hempty : path = ""
    · rw [hempty] at hc
      rw [toList_queryText_head hc]
      rfl
    · rw [List.head?_append, hslash hempty] at hc
      rw [← Option.some.inj hc]
      rfl
  have hupto := takeWhile_upto hall hnext
  rw [splitAuthority, String.toList_append, hupto.1, hupto.2, splitHost_render hhost,
    splitPath_render hpath hquery, String.ofList_toList]

theorem split_of_slash {s : String} (h : s.toList.head? = some '/') :
    split s = splitPath [] s.toList := by
  unfold split
  cases hs : s.toList with
  | nil => rw [hs] at h; cases h
  | cons c cs =>
    rw [hs] at h
    obtain rfl : c = '/' := Option.some.inj h
    rfl

/-- A scheme is neither a path nor the asterisk, and ends at its colon. -/
theorem split_of_scheme {scheme : String} (hscheme : scheme ≠ "")
    (hletters : ∀ c ∈ scheme.toList, c.isAlphanum = true) (rest : String) :
    split (scheme ++ ("://" ++ rest)) = splitAuthority rest.toList := by
  have hcolon := @takeWhile_upto Char (fun c => c != ':') scheme.toList ("://" ++ rest).toList
    (fun c hc => by
      simp only [bne_iff_ne, ne_eq]
      rintro rfl
      exact absurd (hletters _ hc) (by decide))
    (fun c hc => by
      rw [String.toList_append] at hc
      have hcolon : ':' = c := Option.some.inj hc
      simp [← hcolon])
  have hafter : ((scheme ++ ("://" ++ rest)).toList.dropWhile fun c => c != ':').drop 3 =
      rest.toList := by
    rw [String.toList_append, hcolon.2, String.toList_append]
    rfl
  obtain ⟨c, cs, hc⟩ : ∃ c cs, scheme.toList = c :: cs := by
    cases hs : scheme.toList with
    | nil => exact absurd (String.toList_eq_nil_iff.1 hs) hscheme
    | cons c cs => exact ⟨c, cs, rfl⟩
  have hletter : c.isAlphanum = true := hletters c (by rw [hc]; exact List.mem_cons_self ..)
  rw [← hafter]
  unfold split
  rw [String.toList_append, hc]
  split
  · rename_i hhead
    rw [(List.cons.inj hhead).1] at hletter
    exact absurd hletter (by decide)
  · rename_i hhead
    rw [(List.cons.inj hhead).1] at hletter
    exact absurd hletter (by decide)
  · rfl

/-- **Round trip.** The parser finds the parts a well-formed target was written from. -/
theorem split_render {t : RequestTarget} (h : t.WellFormed) : split t.render = t.parts := by
  cases h with
  | @origin path query hslash hpath hquery =>
    have hhead : (path ++ queryText query).toList.head? = some '/' := by
      rw [String.toList_append, List.head?_append, hslash]
      rfl
    rw [render, split_of_slash hhead, splitPath_render hpath hquery]
    rfl
  | @absolute scheme host port path query hscheme hletters hhost hport hslash hpath hquery =>
    have htext : render (absolute scheme host port path query) =
        scheme ++ ("://" ++ (host ++ portText port ++ (path ++ queryText query))) := by
      simp only [render, String.append_assoc]
    rw [htext, split_of_scheme hscheme hletters]
    exact splitAuthority_render hhost hport hslash hpath hquery
  | asterisk => rfl

end RequestTarget
