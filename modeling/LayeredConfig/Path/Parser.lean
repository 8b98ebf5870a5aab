import LayeredConfig.Decimal.Digits
import LayeredConfig.Path.Basic
import LayeredConfig.Path.Fault

set_option autoImplicit false

/-!
# Reading the text of a path

A path is a sequence of elements between dots: a name, or a name with one index in brackets. One
dot at the end of the text is ignored, and the empty text is the root. An element is read from the
front of the text; the segments it gives carry the text before and after them.
-/
namespace LayeredConfig.Path

def isNameChar (c : Char) : Bool := c != '.' && c != '['

/-- The text without one final dot. -/
def dropFinalDot (cs : List Char) : List Char :=
  if cs.getLast? = some '.' then cs.dropLast else cs

/-- Indices are signed 64-bit numerals that are not negative. -/
def place? (body : List Char) : Except Fault Place :=
  if body = ".length".toList then .ok .pastEnd
  else
    match Decimal.integer? 10 true body with
    | none => .error .noInteger
    | some n =>
      if n < -(Nat.pow 2 63 : Int) ∨ Nat.pow 2 63 ≤ n then .error .noInteger
      else if n < 0 then .error .negativeIndex
      else .ok (.at n.toNat)

/-- An index at the front of a text that starts with a bracket: the place, the text of the index
with its brackets, and the text after it. -/
def index? (tail : List Char) : Except Fault (Place × List Char × List Char) :=
  if (String.ofList tail).utf8ByteSize < 3 then .error .shortIndex
  else
    let body := tail.tail.takeWhile (· != ']')
    match tail.tail.dropWhile (· != ']') with
    | [] => .error .unclosedIndex
    | _ :: after =>
      match place? body with
      | .error fault => .error fault
      | .ok place => .ok (place, '[' :: body ++ [']'], after)

/-- What follows a complete element: nothing, or a dot with the next element behind it. The answer
is the text of the next element, empty at the end of the path. -/
def afterIndex? : List Char → Except Fault (List Char)
  | [] => .ok []
  | '.' :: [] => .error .finalSeparator
  | '.' :: rest => .ok rest
  | '[' :: _ => .error .nestedIndex
  | _ :: _ => .error .textAfterIndex

def segment (step : Step) (incoming remaining : List Char) : Segment :=
  ⟨step, String.ofList incoming, String.ofList remaining⟩

/-- The segments of one element at the front of `rest`, with the texts consumed and left. -/
def element? (done rest : List Char) :
    Except Fault (List Segment × List Char × List Char) :=
  let name := rest.takeWhile isNameChar
  let tail := rest.dropWhile isNameChar
  let step := Step.property (String.ofList name)
  let consumed := done ++ name
  if name.isEmpty then .error .emptyName
  else
    match tail with
    | [] => .ok ([segment step consumed []], consumed, [])
    | '.' :: after =>
      if after.isEmpty then .error .finalSeparator
      else .ok ([segment step consumed after], consumed ++ ['.'], after)
    | _ :: _ =>
      match index? tail with
      | .error fault => .error fault
      | .ok (place, written, after) =>
        match afterIndex? after with
        | .error fault => .error fault
        | .ok next =>
          let closed := consumed ++ written
          .ok ([segment step consumed tail, segment (.index place) closed next],
            if next.isEmpty then closed else closed ++ ['.'], next)

theorem afterIndex?_length {after next : List Char} (h : afterIndex? after = .ok next) :
    next.length ≤ after.length := by
  unfold afterIndex? at h
  split at h <;> simp_all

theorem index?_length {tail written after : List Char} {place : Place}
    (h : index? tail = .ok (place, written, after)) : after.length ≤ tail.length := by
  unfold index? at h
  split at h
  · simp at h
  · dsimp only at h
    split at h
    · simp at h
    · rename_i heq
      split at h
      · simp at h
      · simp only [Except.ok.injEq, Prod.mk.injEq] at h
        have hd := (List.dropWhile_sublist (· != ']') (l := tail.tail)).length_le
        rw [heq] at hd
        simp only [List.length_cons, List.length_tail] at hd
        rw [← h.2.2]
        omega

/-- An element takes at least its name from the text. -/
theorem element?_length {done rest consumed next : List Char} {segments : List Segment}
    (h : element? done rest = .ok (segments, consumed, next)) : next.length < rest.length := by
  have hsplit := List.takeWhile_append_dropWhile (p := isNameChar) (l := rest)
  have hlen := congrArg List.length hsplit
  simp only [List.length_append] at hlen
  unfold element? at h
  dsimp only at h
  split at h
  · simp at h
  · rename_i hname
    have hpos : 0 < (rest.takeWhile isNameChar).length := by
      cases hn : rest.takeWhile isNameChar with
      | nil => simp [hn] at hname
      | cons c cs => simp
    split at h
    · simp only [Except.ok.injEq, Prod.mk.injEq] at h
      rw [← h.2.2]
      simp only [List.length_nil]
      omega
    · rename_i heq
      rw [heq] at hlen
      split at h
      · simp at h
      · simp only [Except.ok.injEq, Prod.mk.injEq] at h
        rw [← h.2.2]
        simp only [List.length_cons] at hlen
        omega
    · split at h
      · simp at h
      · rename_i hindex
        split at h
        · simp at h
        · rename_i hafter
          simp only [Except.ok.injEq, Prod.mk.injEq] at h
          have h₁ := index?_length hindex
          have h₂ := afterIndex?_length hafter
          rw [← h.2.2]
          omega

/-- The segments of `rest`, which follows the text `done`. -/
def segments? (done rest : List Char) : Except Fault (List Segment) :=
  if rest.isEmpty then .ok []
  else
    match _h : element? done rest with
    | .error fault => .error fault
    | .ok (first, consumed, next) =>
      match segments? consumed next with
      | .error fault => .error fault
      | .ok more => .ok (first ++ more)
termination_by rest.length
decreasing_by exact element?_length _h

def parse (source : String) : Except Fault Path :=
  let text := dropFinalDot source.toList
  match segments? [] text with
  | .error fault => .error fault
  | .ok segments => .ok ⟨source, String.ofList text, segments⟩

end LayeredConfig.Path
