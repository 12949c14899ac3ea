/-
  THE HEAD OF AN HTTP MESSAGE.

  A start line, fields of a name and a value, and an empty line; every line ends in CRLF.

  1. **`readHead`** — the head at the front of a stream and what is behind it; `none` as long as the
     empty line has not come, or where a line is no field.  A line ends at the first CRLF, so a
     carriage return or a line feed alone is a character of its line.

  2. `printHead` — a head as it is sent.  `readHead_printHead`: it is read back, and nothing of what
     follows is touched.  That takes a head none of whose parts runs into the next one
     (`Head.Proper`).

  3. **`readHead_append`** — a head that is there stays what it is, whatever comes behind it; so a
     printed head that is cut anywhere is no head (`readHead_cut`).

  Which fields a message needs, and what a body is, is left to the programs that use this.
-/
import Mathlib.Data.Bool.AllAny
import Mathlib.Data.List.DropRight
import Mathlib.Data.List.Infix
import Mathlib.Data.List.TakeWhile

namespace Safewrt.Lib.Http

/-- What is on the wire. -/
abbrev Bytes := List UInt8

def cr : UInt8 := 0x0d
def lf : UInt8 := 0x0a
def colon : UInt8 := 0x3a

/-- The end of every line of a head. -/
def crlf : Bytes := [cr, lf]

/-- Space and tab. -/
def isBlank (b : UInt8) : Bool := b == 0x20 || b == 0x09

/-- One field line, without its colon and its line end. -/
structure Field where
  name : Bytes
  value : Bytes
  deriving Repr, DecidableEq

/-- The start line, whatever it is (of a request or a response), and the fields in their order. -/
structure Head where
  start : Bytes
  fields : List Field
  deriving Repr, DecidableEq

/-! ## Reading -/

/-- The bytes before the first CRLF, and those behind it. -/
def readLine : Bytes → Option (Bytes × Bytes)
  | [] => none
  | b :: stream =>
    if crlf <+: b :: stream then some ([], stream.tail)
    else (readLine stream).map fun (line, rest) => (b :: line, rest)

/-- A value without the blanks around it. -/
def trim (value : Bytes) : Bytes := (value.dropWhile isBlank).rdropWhile isBlank

/-- A name, a colon, and a value between blanks. -/
def readField (line : Bytes) : Option Field :=
  let name := line.takeWhile (· ≠ colon)
  match line.dropWhile (· ≠ colon) with
  | [] => none
  | _ :: value => if name = [] then none else some ⟨name, trim value⟩

/-- The fields up to the empty line; no more lines than `fuel`. -/
def readFields : Nat → Bytes → Option (List Field × Bytes)
  | 0, _ => none
  | fuel + 1, stream =>
    (readLine stream).bind fun (line, rest) =>
      if line = [] then some ([], rest)
      else (readField line).bind fun field =>
        (readFields fuel rest).map fun (fields, rest) => (field :: fields, rest)

/-- The head at the front of a stream. -/
def readHead (stream : Bytes) : Option (Head × Bytes) :=
  (readLine stream).bind fun (start, rest) =>
    (readFields (rest.length + 1) rest).map fun (fields, rest) => (⟨start, fields⟩, rest)

/-! ## Printing -/

/-- One blank behind the colon, as is usual; a reader takes any number of them. -/
def Field.print (f : Field) : Bytes := f.name ++ ([colon, 0x20] ++ (f.value ++ crlf))

/-- The head as it is sent, with the empty line that ends it. -/
def printHead (h : Head) : Bytes := h.start ++ (crlf ++ (h.fields.flatMap Field.print ++ crlf))

/-- A name without a colon, and a value that begins and ends in something else than a blank. -/
structure Field.Proper (f : Field) : Prop where
  nonempty : f.name ≠ []
  name : ∀ b ∈ f.name, b ≠ colon ∧ b ≠ cr
  value : cr ∉ f.value
  front : ∀ b ∈ f.value.head?, isBlank b = false
  back : ∀ b ∈ f.value.getLast?, isBlank b = false

instance (f : Field) : Decidable f.Proper :=
  decidable_of_iff (f.name ≠ [] ∧ (f.name.all fun b => b ≠ colon ∧ b ≠ cr) = true ∧ cr ∉ f.value ∧
      (f.value.head?.all fun b => isBlank b = false) = true ∧
        (f.value.getLast?.all fun b => isBlank b = false) = true) <| by
    simp only [List.all_iff_forall_prop, Option.all_eq_true, decide_eq_true_eq]
    exact ⟨fun ⟨nonempty, name, value, front, back⟩ => ⟨nonempty, name, value, front, back⟩,
      fun h => ⟨h.nonempty, h.name, h.value, h.front, h.back⟩⟩

/-- A head whose lines can be told apart again. -/
structure Head.Proper (h : Head) : Prop where
  start : cr ∉ h.start
  fields : ∀ f ∈ h.fields, f.Proper

/-! ## What is printed is read back -/

/-- A line ends where its CRLF is. -/
theorem readLine_crlf {line : Bytes} (h : cr ∉ line) (rest : Bytes) :
    readLine (line ++ (crlf ++ rest)) = some (line, rest) := by
  induction line with
  | nil => rfl
  | cons b line ih =>
    rw [List.mem_cons, not_or] at h
    have hno : ¬ crlf <+: b :: (line ++ (crlf ++ rest)) := by
      intro hprefix
      exact h.1 (List.cons_prefix_cons.mp hprefix).1
    rw [List.cons_append, readLine, if_neg hno, ih h.2]
    rfl

/-- The blank that `Field.print` puts before a value is trimmed off, and nothing else is. -/
theorem trim_blank {value : Bytes} (hfront : ∀ b ∈ value.head?, isBlank b = false)
    (hback : ∀ b ∈ value.getLast?, isBlank b = false) : trim (0x20 :: value) = value := by
  have hhead : value.dropWhile isBlank = value := by
    cases value with
    | nil => rfl
    | cons b value => exact List.dropWhile_cons_of_neg (by rw [hfront b rfl]; decide)
  rw [trim, List.dropWhile_cons_of_pos (by decide), hhead]
  rcases List.eq_nil_or_concat value with rfl | ⟨value, b, rfl⟩
  · rfl
  · rw [List.concat_eq_append] at hback ⊢
    have hb : isBlank b = false := hback b List.getLast?_concat
    exact List.rdropWhile_concat_neg isBlank value b (Bool.eq_false_iff.mp hb)

/-- A field's line, without its CRLF. -/
theorem readField_line {f : Field} (h : f.Proper) :
    readField (f.name ++ ([colon, 0x20] ++ f.value)) = some f := by
  have hname : ∀ b ∈ f.name, decide (b ≠ colon) = true := fun b hb =>
    decide_eq_true (h.name b hb).1
  have htake : (f.name ++ ([colon, 0x20] ++ f.value)).takeWhile (· ≠ colon) = f.name := by
    rw [List.takeWhile_append_of_pos hname]
    exact List.append_nil _
  have hdrop : (f.name ++ ([colon, 0x20] ++ f.value)).dropWhile (· ≠ colon) =
      colon :: 0x20 :: f.value := by
    rw [List.dropWhile_append_of_pos hname]
    rfl
  rw [readField, htake, hdrop]
  dsimp only
  rw [if_neg h.nonempty, trim_blank h.front h.back]

/-- The fields come back in their order, and `rest` is left.  One unit of fuel is used for each
    line, the empty one included. -/
theorem readFields_print {fields : List Field} (h : ∀ f ∈ fields, f.Proper) (rest : Bytes) :
    ∀ fuel, fields.length < fuel →
      readFields fuel (fields.flatMap Field.print ++ (crlf ++ rest)) = some (fields, rest) := by
  induction fields with
  | nil =>
    intro fuel hfuel
    obtain ⟨n, rfl⟩ : ∃ n, fuel = n + 1 := ⟨fuel - 1, by simp at hfuel; omega⟩
    rfl
  | cons f fields ih =>
    intro fuel hfuel
    obtain ⟨n, rfl⟩ : ∃ n, fuel = n + 1 := ⟨fuel - 1, by simp at hfuel; omega⟩
    obtain ⟨hf, hfields⟩ := List.forall_mem_cons.mp h
    -- the line of the field ends at its own CRLF
    have hline : cr ∉ f.name ++ ([colon, 0x20] ++ f.value) := by
      intro hmem
      rcases List.mem_append.mp hmem with hname | hvalue
      · exact (hf.name cr hname).2 rfl
      · rcases List.mem_append.mp hvalue with hgap | hvalue
        · exact absurd hgap (by decide)
        · exact hf.value hvalue
    -- it is not the empty line either
    have hnonempty : f.name ++ ([colon, 0x20] ++ f.value) ≠ [] := by
      rw [Ne, List.append_eq_nil_iff]
      exact fun hnil => hf.nonempty hnil.1
    have hsplit : (f :: fields).flatMap Field.print ++ (crlf ++ rest) =
        (f.name ++ ([colon, 0x20] ++ f.value)) ++
          (crlf ++ (fields.flatMap Field.print ++ (crlf ++ rest))) := by
      simp only [List.flatMap_cons, Field.print, List.append_assoc]
    rw [hsplit, readFields, readLine_crlf hline, Option.bind_some]
    dsimp only
    rw [if_neg hnonempty, readField_line hf, Option.bind_some,
      ih hfields n (by rw [List.length_cons] at hfuel; omega)]
    rfl

/-- Every field takes some bytes. -/
theorem length_le_print (fields : List Field) :
    fields.length ≤ (fields.flatMap Field.print).length := by
  induction fields with
  | nil => exact Nat.le_refl _
  | cons f fields ih =>
    rw [List.flatMap_cons, List.length_append, List.length_cons]
    have hone : 1 ≤ f.print.length := by
      rw [Field.print, List.length_append, List.length_append]
      exact Nat.le_trans (Nat.le_add_right 1 _) (Nat.le_trans (Nat.le_add_right _ _)
        (Nat.le_add_left _ _))
    omega

/-- **What is printed is read back**, and what follows is left. -/
theorem readHead_printHead {h : Head} (hp : h.Proper) (rest : Bytes) :
    readHead (printHead h ++ rest) = some (h, rest) := by
  have hsplit : printHead h ++ rest =
      h.start ++ (crlf ++ (h.fields.flatMap Field.print ++ (crlf ++ rest))) := by
    simp only [printHead, List.append_assoc]
  have hfuel : h.fields.length < (h.fields.flatMap Field.print ++ (crlf ++ rest)).length + 1 := by
    have hle := length_le_print h.fields
    rw [List.length_append]
    omega
  rw [hsplit, readHead, readLine_crlf hp.start, Option.bind_some]
  dsimp only
  rw [readFields_print hp.fields rest _ hfuel]
  rfl

/-! ## A head stays what it is -/

/-- A line that is complete stays the same line when more bytes arrive. -/
theorem readLine_append {stream : Bytes} (more : Bytes) : ∀ {line rest : Bytes},
    readLine stream = some (line, rest) → readLine (stream ++ more) = some (line, rest ++ more) := by
  induction stream with
  | nil =>
    intro line rest h
    exact absurd h (by simp [readLine])
  | cons b stream ih =>
    intro line rest h
    rw [readLine] at h
    by_cases hend : crlf <+: b :: stream
    · rw [if_pos hend] at h
      obtain ⟨rfl, rfl⟩ := Prod.mk.inj (Option.some.inj h)
      have hend' : crlf <+: b :: (stream ++ more) := hend.trans (List.prefix_append _ _)
      rw [List.cons_append, readLine, if_pos hend']
      cases stream with
      | nil => exact absurd hend.length_le (Nat.not_succ_le_self 1)
      | cons c stream => rfl
    · rw [if_neg hend] at h
      obtain ⟨⟨line', rest'⟩, hline, heq⟩ := Option.map_eq_some_iff.mp h
      obtain ⟨rfl, rfl⟩ := Prod.mk.inj heq
      have hend' : ¬ crlf <+: b :: (stream ++ more) := by
        intro hprefix
        cases stream with
        | nil => exact absurd hline (by simp [readLine])
        | cons c stream =>
          -- both bytes of the CRLF are in the stream already
          have hlong : crlf.length ≤ (b :: c :: stream).length := by
            rw [List.length_cons, List.length_cons]
            exact Nat.le_add_left 2 _
          exact hend (List.prefix_of_prefix_length_le hprefix
            (List.prefix_append (b :: c :: stream) more) hlong)
      rw [List.cons_append, readLine, if_neg hend', ih hline]
      rfl

/-- Fields that are complete stay the same fields when more bytes arrive; more fuel does no harm. -/
theorem readFields_append {fuel fuel' : Nat} (hfuel : fuel ≤ fuel') (more : Bytes) :
    ∀ {stream : Bytes} {fields : List Field} {rest : Bytes},
      readFields fuel stream = some (fields, rest) →
        readFields fuel' (stream ++ more) = some (fields, rest ++ more) := by
  induction fuel generalizing fuel' with
  | zero =>
    intro stream fields rest h
    exact absurd h (by simp [readFields])
  | succ fuel ih =>
    intro stream fields rest h
    obtain ⟨n, rfl⟩ : ∃ n, fuel' = n + 1 := ⟨fuel' - 1, by omega⟩
    rw [readFields] at h ⊢
    obtain ⟨⟨line, behind⟩, hline, h⟩ := Option.bind_eq_some_iff.mp h
    rw [readLine_append more hline, Option.bind_some]
    dsimp only at h ⊢
    by_cases hempty : line = []
    · -- the empty line ends the head in both streams
      rw [if_pos hempty] at h ⊢
      obtain ⟨rfl, rfl⟩ := Prod.mk.inj (Option.some.inj h)
      rfl
    · rw [if_neg hempty] at h ⊢
      obtain ⟨field, hfield, h⟩ := Option.bind_eq_some_iff.mp h
      obtain ⟨⟨others, behind'⟩, hothers, heq⟩ := Option.map_eq_some_iff.mp h
      obtain ⟨rfl, rfl⟩ := Prod.mk.inj heq
      rw [hfield, Option.bind_some, ih (Nat.le_of_succ_le_succ hfuel) hothers]
      rfl

/-- **A head that is there stays what it is**, whatever comes behind it. -/
theorem readHead_append {stream : Bytes} {h : Head} {rest : Bytes}
    (hread : readHead stream = some (h, rest)) (more : Bytes) :
    readHead (stream ++ more) = some (h, rest ++ more) := by
  rw [readHead] at hread ⊢
  obtain ⟨⟨start, behind⟩, hstart, hread⟩ := Option.bind_eq_some_iff.mp hread
  obtain ⟨⟨fields, behind'⟩, hfields, heq⟩ := Option.map_eq_some_iff.mp hread
  obtain ⟨rfl, rfl⟩ := Prod.mk.inj heq
  have hfuel : behind.length + 1 ≤ (behind ++ more).length + 1 := by
    rw [List.length_append]
    omega
  rw [readLine_append more hstart, Option.bind_some]
  dsimp only
  rw [readFields_append hfuel more hfields]
  rfl

/-- A printed head that is cut is none. -/
theorem readHead_cut {h : Head} (hp : h.Proper) {n : Nat} (hn : n < (printHead h).length) :
    readHead ((printHead h).take n) = none := by
  by_contra hsome
  obtain ⟨⟨h', rest⟩, hread⟩ := Option.ne_none_iff_exists'.mp hsome
  have hwhole := readHead_append hread ((printHead h).drop n)
  have hprinted := readHead_printHead hp []
  rw [List.append_nil] at hprinted
  rw [List.take_append_drop, hprinted] at hwhole
  have hrest := (Prod.mk.inj (Option.some.inj hwhole)).2
  have hdrop := (List.append_eq_nil_iff.mp hrest.symm).2
  rw [List.drop_eq_nil_iff] at hdrop
  omega

end Safewrt.Lib.Http
