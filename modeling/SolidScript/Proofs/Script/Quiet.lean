import SolidScript.Proofs.Script.Numeral
import SolidScript.Proofs.Text.Quoted
import SolidScript.Script.Render

/-!
# Quiet text

The structure of a script is in the braces, semicolons and line ends that stand outside of its literals. A text is
`Quiet` if it has none of them: it consists of plain characters and of whole literals.

* `quiet_number`: the text of a measure is quiet, whatever the double.
* `Primitive.quiet_call`, `Operation.quiet_header`: so are all calls, and all headers but those of loops, whatever
  texts and numbers they are made from.
* `Quiet.newline_notMem`: a quiet text has no line end, not even in a literal.
-/

namespace SolidScript.Script

open Text.Quoted

/-- Whether a character means nothing to the structure of a script. -/
def isPlain (c : Char) : Bool := c ∉ ['"', ';', '\x7b', '\x7d', '\n']

/-- Plain characters and whole literals, one after another. -/
inductive QuietChars : List Char → Prop where
  | nil : QuietChars []
  | plain {c : Char} {rest : List Char} : isPlain c = true → QuietChars rest → QuietChars (c :: rest)
  | literal (text : List Char) {rest : List Char} :
    QuietChars rest → QuietChars ('"' :: (encode text ++ '"' :: rest))

/-- A text without any mark of structure. -/
def Quiet (text : String) : Prop := QuietChars text.toList

theorem QuietChars.append {first second : List Char} (hfirst : QuietChars first) (hsecond : QuietChars second) :
    QuietChars (first ++ second) := by
  induction hfirst with
  | nil => exact hsecond
  | plain hc _ ih => exact .plain hc ih
  | literal text _ ih =>
    rw [List.cons_append, List.append_assoc, List.cons_append]
    exact .literal text ih

theorem QuietChars.of_plain {chars : List Char} (h : ∀ c ∈ chars, isPlain c = true) : QuietChars chars := by
  induction chars with
  | nil => exact .nil
  | cons c rest ih => exact .plain (h c List.mem_cons_self) (ih fun d hd => h d (List.mem_cons_of_mem _ hd))

theorem Quiet.append {first second : String} (hfirst : Quiet first) (hsecond : Quiet second) :
    Quiet (first ++ second) := by
  unfold Quiet
  rw [String.toList_append]
  exact QuietChars.append hfirst hsecond

theorem Quiet.of_plain {text : String} (h : text.toList.all isPlain = true) : Quiet text :=
  QuietChars.of_plain (List.all_eq_true.1 h)

theorem Quiet.ofList {chars : List Char} (h : ∀ c ∈ chars, isPlain c = true) : Quiet (String.ofList chars) := by
  unfold Quiet
  rw [String.toList_ofList]
  exact QuietChars.of_plain h

theorem quiet_ite {p : Prop} [Decidable p] {first second : String} (hfirst : Quiet first) (hsecond : Quiet second) :
    Quiet (if p then first else second) := by
  split
  · exact hfirst
  · exact hsecond

/-! ## Literals -/

theorem quiet_quote (text : String) : Quiet (quote text) := by
  unfold Quiet quote
  rw [String.toList_ofList, List.cons_append]
  exact .literal text.toList .nil

theorem QuietChars.newline_notMem {chars : List Char} (h : QuietChars chars) : '\n' ∉ chars := by
  induction h with
  | nil => exact List.not_mem_nil
  | plain hc _ ih =>
    intro hmem
    rcases List.mem_cons.1 hmem with rfl | hmem
    · exact absurd hc (by decide)
    · exact ih hmem
  | literal text _ ih =>
    intro hmem
    rcases List.mem_cons.1 hmem with h | hmem
    · exact absurd h (by decide)
    · rcases List.mem_append.1 hmem with hmem | hmem
      · exact notMem_encode (.inl rfl) text hmem
      · rcases List.mem_cons.1 hmem with h | hmem
        · exact absurd h (by decide)
        · exact ih hmem

/-- A quiet text is a single line. -/
theorem Quiet.newline_notMem {text : String} (h : Quiet text) : '\n' ∉ text.toList := QuietChars.newline_notMem h

/-! ## Numbers -/

theorem isPlain_of_isDigit {c : Char} (h : c.isDigit = true) : isPlain c = true := by
  unfold isPlain
  rw [decide_eq_true_eq]
  intro hmem
  simp only [List.mem_cons, List.not_mem_nil, or_false] at hmem
  rcases hmem with rfl | rfl | rfl | rfl | rfl <;> exact absurd h (by decide)

theorem isPlain_of_isNumeral {c : Char} (h : isNumeral c = true) : isPlain c = true := by
  simp only [isNumeral, Bool.or_eq_true, beq_iff_eq] at h
  rcases h with (hdigit | rfl) | rfl
  · exact isPlain_of_isDigit hdigit
  · decide
  · decide

theorem Numerals.quiet {text : String} (h : Numerals text) : Quiet text :=
  QuietChars.of_plain fun c hc => isPlain_of_isNumeral (h c hc)

theorem quiet_digits (n : Nat) : Quiet (Decimal.Digits.write n) :=
  (Numerals.ofList (Decimal.Digits.isDigit_toDigits n)).quiet

theorem quiet_count (n : UInt32) : Quiet (count n) := quiet_digits n.toNat

theorem quiet_number (x : Float) : Quiet (number x) := (numerals_number x).quiet

/-! ## Lists -/

theorem QuietChars.intercalate {separator : List Char} (hseparator : QuietChars separator) :
    ∀ {texts : List (List Char)}, (∀ text ∈ texts, QuietChars text) → QuietChars (separator.intercalate texts)
  | [], _ => .nil
  | [text], h => by
    rw [List.intercalate_singleton]
    exact h text List.mem_cons_self
  | text :: next :: rest, h => by
    rw [List.intercalate_cons_cons]
    exact .append (.append (h text List.mem_cons_self) hseparator)
      (QuietChars.intercalate hseparator fun t ht => h t (List.mem_cons_of_mem _ ht))

theorem quiet_bracketed {items : List String} (h : ∀ item ∈ items, Quiet item) : Quiet (bracketed items) := by
  have hcomma : Quiet "," := .of_plain (by decide)
  refine .append (.append (.of_plain (by decide)) ?_) (.of_plain (by decide))
  unfold Quiet
  rw [String.toList_intercalate]
  refine .intercalate hcomma fun text htext => ?_
  obtain ⟨item, hitem, rfl⟩ := List.mem_map.1 htext
  exact h item hitem

/-- Items between brackets that are all written in one way. -/
theorem quiet_bracketed_map {α : Type} {write : α → String} (h : ∀ a, Quiet (write a)) (items : List α) :
    Quiet (bracketed (items.map write)) :=
  quiet_bracketed fun item hitem => by
    obtain ⟨a, -, rfl⟩ := List.mem_map.1 hitem
    exact h a

theorem quiet_vec2 (v : Vec2 Float) : Quiet (vec2 v) := quiet_bracketed_map quiet_number _

theorem quiet_vec3 (v : Vec3 Float) : Quiet (vec3 v) := quiet_bracketed_map quiet_number _

theorem quiet_indices (lists : List (List UInt64)) : Quiet (indices lists) :=
  quiet_bracketed_map (fun list => quiet_bracketed_map (fun i : UInt64 => quiet_digits i.toNat) list) lists

theorem quiet_matrix (m : Matrix4 Float) : Quiet (matrix m) :=
  quiet_bracketed_map (fun row => quiet_bracketed_map quiet_number row) m.rows

theorem quiet_flag (b : Bool) : Quiet (flag b) := quiet_ite (.of_plain (by decide)) (.of_plain (by decide))

theorem quiet_centerArgument (center : Bool) : Quiet (centerArgument center) :=
  quiet_ite (.of_plain (by decide)) (.of_plain (by decide))

theorem quiet_radii (r1 r2 : Float) : Quiet (radii r1 r2) :=
  quiet_ite (.append (.of_plain (by decide)) (quiet_number r1))
    (.append (.append (.append (.of_plain (by decide)) (quiet_number r1)) (.of_plain (by decide))) (quiet_number r2))

theorem quiet_pathsArgument : ∀ paths : Option (List (List UInt64)), Quiet (pathsArgument paths)
  | none => .nil
  | some paths => .append (.of_plain (by decide)) (quiet_indices paths)

end SolidScript.Script

namespace SolidScript

open Script

/-! ## Calls and headers -/

theorem Label.quiet_call (l : Label Float) : Quiet l.call := by
  unfold Label.call
  repeat' with_reducible apply Quiet.append
  all_goals first
    | with_reducible exact quiet_number _
    | with_reducible exact quiet_count _
    | with_reducible exact quiet_quote _
    | exact .of_plain (by decide)

/-- **No call has a mark of structure**, whatever its texts and numbers are. -/
theorem Primitive.quiet_call (p : Primitive Float) : Quiet p.call := by
  cases p
  case text label => exact label.quiet_call
  all_goals
    unfold Primitive.call
    repeat' with_reducible apply Quiet.append
  all_goals first
    | with_reducible first
      | exact quiet_number _
      | exact quiet_count _
      | exact quiet_quote _
      | exact quiet_vec2 _
      | exact quiet_vec3 _
      | exact quiet_indices _
      | exact quiet_flag _
      | exact quiet_centerArgument _
      | exact quiet_bracketed_map quiet_vec2 _
      | exact quiet_bracketed_map quiet_vec3 _
      | exact quiet_radii _ _
      | exact quiet_pathsArgument _
    | exact .of_plain (by decide)

/-- The header of an operation other than a loop has no mark of structure. -/
theorem Operation.quiet_header : ∀ {op : Operation Float}, (∀ expression, op ≠ .loop expression) → Quiet op.header
  | .translate v, _ => .append (.append (.of_plain (by decide)) (quiet_vec3 v)) (.of_plain (by decide))
  | .resize size auto, _ =>
    .append (.append (.append (.append (.of_plain (by decide)) (quiet_vec3 size)) (.of_plain (by decide)))
      (quiet_bracketed_map quiet_flag _)) (.of_plain (by decide))
  | .transform m, _ => .append (.append (.of_plain (by decide)) (quiet_matrix m)) (.of_plain (by decide))
  | .rotate (.euler angles), _ => .append (.append (.of_plain (by decide)) (quiet_vec3 angles)) (.of_plain (by decide))
  | .rotate (.about angle axis), _ =>
    .append (.append (.append (.append (.of_plain (by decide)) (quiet_number angle)) (.of_plain (by decide)))
      (quiet_vec3 axis)) (.of_plain (by decide))
  | .scale v, _ => .append (.append (.of_plain (by decide)) (quiet_vec3 v)) (.of_plain (by decide))
  | .mirror v, _ => .append (.append (.of_plain (by decide)) (quiet_vec3 v)) (.of_plain (by decide))
  | .union, _ => .of_plain (by decide)
  | .difference, _ => .of_plain (by decide)
  | .intersection, _ => .of_plain (by decide)
  | .minkowski, _ => .of_plain (by decide)
  | .hull, _ => .of_plain (by decide)
  | .loop expression, h => absurd rfl (h expression)

end SolidScript
