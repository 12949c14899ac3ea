/-
  What sentry uses of hyper 0.11, as a parameter.

  1. **Headers** — a header map is known by the lines it has for a name.  The laws are the
     documented ones: names compare without regard to case, `append_raw` adds a line to those that
     are there, and going through a map meets every line, under its name and in order.

  2. **URIs** — the type of parsed ones and the parser, about which nothing is assumed here; a
     result that needs the parser to accept a text says so itself (`Hyper.ParsesHttp`, in
     `Sentry.Visit`).

  3. `plainHyper` has all of it: headers as a list of lines, and a URI that is its own text.
-/
import Safewrt.Lib.Text

namespace Safewrt.Sentry

open Safewrt.Lib

/-- Header names are the same up to the case of ASCII letters. -/
def sameName (a b : Text) : Bool := a.map Char.toLower == b.map Char.toLower

/-- The lines of all headers of that name. -/
def namedLines (headers : List (Text × List Text)) (name : Text) : List Text :=
  (headers.filter fun x => sameName x.1 name).flatMap Prod.snd

@[simp] theorem namedLines_nil (name : Text) : namedLines [] name = [] := rfl

/-- The lines of the first name count if it is the name that is asked for. -/
theorem namedLines_cons (x : Text × List Text) (xs : List (Text × List Text)) (name : Text) :
    namedLines (x :: xs) name =
      if sameName x.1 name then x.2 ++ namedLines xs name else namedLines xs name := by
  unfold namedLines
  rw [List.filter_cons]
  split
  · rw [List.flatMap_cons]
  · rfl

theorem namedLines_append (xs ys : List (Text × List Text)) (name : Text) :
    namedLines (xs ++ ys) name = namedLines xs name ++ namedLines ys name := by
  unfold namedLines
  rw [List.filter_append, List.flatMap_append]

/-- `hyper::Headers`. -/
structure HeaderMap where
  Headers : Type
  empty : Headers
  /-- `get_raw(name)`: the lines of the header, none where it is absent -/
  values : Headers → Text → List Text
  appendRaw : Headers → Text → List Text → Headers
  /-- `iter()`: every header with its lines -/
  iter : Headers → List (Text × List Text)
  values_empty : ∀ name, values empty name = []
  values_appendRaw : ∀ h name lines other, values (appendRaw h name lines) other =
    if sameName name other then values h other ++ lines else values h other
  values_iter : ∀ h name, values h name = namedLines (iter h) name

/-- `hyper::header::Host`: its host name, and all of it as it is printed. -/
structure Host where
  hostname : Text
  text : Text
  deriving Repr, DecidableEq

/-- The header map, the two headers sentry reads, and `hyper::Uri`. -/
structure Hyper extends HeaderMap where
  host : Headers → Option Host
  referer : Headers → Option Text
  Uri : Type
  /-- `Uri::from_str` -/
  parseUri : Text → Option Uri
  /-- `as_ref` -/
  uriText : Uri → Text
  uriQuery : Uri → Option Text
  uriHost : Uri → Option Text

/-! ## Headers as a list of lines -/

/-- A header map that keeps one line after the other. -/
def lineHeaders : HeaderMap where
  Headers := List (Text × List Text)
  empty := []
  values := namedLines
  appendRaw h name lines := h ++ [(name, lines)]
  iter h := h
  values_empty _ := rfl
  values_appendRaw h name lines other := by
    rw [namedLines_append, namedLines_cons]
    split
    · rw [namedLines_nil, List.append_nil]
    · rw [namedLines_nil, List.append_nil]
  values_iter _ _ := rfl

/-- `http://host/path?query` taken apart by its punctuation, which is enough for plain addresses. -/
def plainHyper : Hyper where
  toHeaderMap := lineHeaders
  host h := ((lineHeaders.values h "Host".toList).head?).map fun text =>
    ⟨text.takeWhile (· != ':'), text⟩
  referer h := (lineHeaders.values h "Referer".toList).head?
  Uri := Text
  parseUri t := if t.any isWhitespace then none else some t
  uriText t := t
  uriQuery t := (strip "?".toList (t.dropWhile (· != '?')))
  uriHost t := (strip "http://".toList t).map fun t => t.takeWhile fun c => c != '/' && c != ':'

end Safewrt.Sentry
