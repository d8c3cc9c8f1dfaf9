import GraphBlock.Text.Basic

/-!
A text cut at its delimiters. Cutting loses nothing (`text_cut`), so a text can be changed piece by
piece and put together again.
-/

namespace GraphBlock

/-- Each closed piece with the delimiter that ends it, then the open last piece. -/
inductive Pieces
  | last (piece : Text)
  | closed (piece : Text) (delimiter : Char) (rest : Pieces)
  deriving DecidableEq, Repr

namespace Pieces

def push (c : Char) : Pieces → Pieces
  | last p => last (c :: p)
  | closed p d rest => closed (c :: p) d rest

def cut (isDelimiter : Char → Bool) : Text → Pieces
  | [] => last []
  | c :: t =>
    if isDelimiter c then closed [] c (cut isDelimiter t) else (cut isDelimiter t).push c

def text : Pieces → Text
  | last p => p
  | closed p d rest => p ++ d :: rest.text

def toList : Pieces → List Text
  | last p => [p]
  | closed p _ rest => p :: rest.toList

def updateFirst? (f : Text → Option Text) : Pieces → Option Pieces
  | last p => (f p).map last
  | closed p d rest =>
    match f p with
    | some q => some (closed q d rest)
    | none => (rest.updateFirst? f).map (closed p d)

@[simp] theorem text_push (c : Char) (p : Pieces) : (p.push c).text = c :: p.text := by
  cases p <;> rfl

@[simp] theorem text_cut (isDelimiter : Char → Bool) (t : Text) :
    (cut isDelimiter t).text = t := by
  induction t with
  | nil => rfl
  | cons c t ih =>
    by_cases h : isDelimiter c <;> simp [cut, h, text, ih]

@[simp] theorem push_last (c : Char) (p : Text) : (last p).push c = last (c :: p) := rfl

@[simp] theorem push_closed (c : Char) (p : Text) (d : Char) (rest : Pieces) :
    (closed p d rest).push c = closed (c :: p) d rest := rfl

theorem cut_eq_last {isDelimiter : Char → Bool} {t : Text} (h : ∀ c ∈ t, isDelimiter c = false) :
    cut isDelimiter t = last t := by
  induction t with
  | nil => rfl
  | cons c t ih =>
    have hc := h c List.mem_cons_self
    simp [cut, hc, ih fun x hx => h x (List.mem_cons_of_mem _ hx)]

theorem cut_append_cons {isDelimiter : Char → Bool} {p : Text} {d : Char} (rest : Text)
    (h : ∀ c ∈ p, isDelimiter c = false) (hd : isDelimiter d = true) :
    cut isDelimiter (p ++ d :: rest) = closed p d (cut isDelimiter rest) := by
  induction p with
  | nil => simp [cut, hd]
  | cons c p ih =>
    have hc := h c List.mem_cons_self
    simp [cut, hc, ih fun x hx => h x (List.mem_cons_of_mem _ hx)]

end Pieces

namespace Text

def parts (isDelimiter : Char → Bool) (t : Text) : List Text :=
  ((Pieces.cut isDelimiter t).toList.map trim).filter (!·.isEmpty)

def isLineBreak (c : Char) : Bool :=
  let n := c.toNat
  (0x0A ≤ n && n ≤ 0x0D) || (0x1C ≤ n && n ≤ 0x1E) || n == 0x85 || n == 0x2028 || n == 0x2029

def lines (t : Text) : List Text := parts isLineBreak t

end Text

end GraphBlock
