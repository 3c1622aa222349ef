import Mathlib.Tactic.Common
import TokenHub.Lib.Digits

set_option autoImplicit false

namespace TokenHub.Lib.Json

open PrefixCode Digits

/-- A JSON value; the fields of an object stand in the order in which they are written. -/
inductive Value
  | null
  | bool (b : Bool)
  | num (n : ℤ)
  | str (s : String)
  | arr (items : List Value)
  | obj (fields : List (String × Value))

def hexDigit (n : ℕ) : Char := Nat.digitChar (n % 16)

def hexValue (c : Char) : ℕ := if c.isDigit then c.toNat - 48 else c.toNat - 87

theorem hexValue_hexDigit (n : ℕ) : hexValue (hexDigit n) = n % 16 := by
  have h : ∀ d < 16, hexValue (Nat.digitChar d) = d := by decide
  exact h _ (Nat.mod_lt _ (by omega))

def unitEscape (n : ℕ) : List Char :=
  ['\\', 'u', hexDigit (n / 4096), hexDigit (n / 256), hexDigit (n / 16), hexDigit n]

/-- The escape of one character under `ensure_ascii`. -/
def escapeChar (c : Char) : List Char :=
  if c = '"' then ['\\', '"']
  else if c = '\\' then ['\\', '\\']
  else if c = '\n' then ['\\', 'n']
  else if c = '\r' then ['\\', 'r']
  else if c = '\t' then ['\\', 't']
  else if c.toNat = 12 then ['\\', 'f']
  else if c.toNat = 8 then ['\\', 'b']
  else if 32 ≤ c.toNat ∧ c.toNat ≤ 126 then [c]
  else if c.toNat < 65536 then unitEscape c.toNat
  else unitEscape (55296 + (c.toNat - 65536) / 1024) ++
    unitEscape (56320 + (c.toNat - 65536) % 1024)

def escapeText : List Char → List Char
  | [] => ['"']
  | c :: t => escapeChar c ++ escapeText t

def stringText (s : String) : List Char := '"' :: escapeText s.toList

mutual

def dumps : Value → List Char
  | .null => ['n', 'u', 'l', 'l']
  | .bool true => ['t', 'r', 'u', 'e']
  | .bool false => ['f', 'a', 'l', 's', 'e']
  | .num n => intText n
  | .str s => stringText s
  | .arr items => '[' :: dumpsItems items
  | .obj fields => '\x7b' :: dumpsFields fields

def dumpsItems : List Value → List Char
  | [] => [']']
  | x :: xs => dumps x ++ dumpsMoreItems xs

def dumpsMoreItems : List Value → List Char
  | [] => [']']
  | x :: xs => ',' :: (dumps x ++ dumpsMoreItems xs)

def dumpsFields : List (String × Value) → List Char
  | [] => ['\x7d']
  | (k, v) :: fs => stringText k ++ ':' :: (dumps v ++ dumpsMoreFields fs)

def dumpsMoreFields : List (String × Value) → List Char
  | [] => ['\x7d']
  | (k, v) :: fs => ',' :: (stringText k ++ ':' :: (dumps v ++ dumpsMoreFields fs))

end

section Escapes

def readUnit : List Char → Option (ℕ × List Char)
  | '\\' :: 'u' :: a :: b :: c :: d :: t =>
    some (hexValue a * 4096 + hexValue b * 256 + hexValue c * 16 + hexValue d, t)
  | _ => none

theorem readUnit_unitEscape {n : ℕ} (h : n < 65536) (r : List Char) :
    readUnit (unitEscape n ++ r) = some (n, r) := by
  simp only [unitEscape, List.cons_append, List.nil_append, readUnit, hexValue_hexDigit,
    Option.some.injEq, Prod.mk.injEq, and_true]
  omega

/-- The two escapes of a character outside the basic plane, or the single one of a character
inside it. -/
def readUnits (t : List Char) : Option (ℕ × List Char) :=
  match readUnit t with
  | none => none
  | some (n, r) =>
    if n < 55296 ∨ 57344 ≤ n then some (n, r)
    else match readUnit r with
      | none => none
      | some (m, r') => some (65536 + (n - 55296) * 1024 + (m - 56320), r')

/-- Reads back the character that `escapeChar` wrote. -/
def readChar : List Char → Option (ℕ × List Char)
  | '\\' :: '"' :: t => some (34, t)
  | '\\' :: '\\' :: t => some (92, t)
  | '\\' :: 'n' :: t => some (10, t)
  | '\\' :: 'r' :: t => some (13, t)
  | '\\' :: 't' :: t => some (9, t)
  | '\\' :: 'f' :: t => some (12, t)
  | '\\' :: 'b' :: t => some (8, t)
  | '\\' :: 'u' :: t => readUnits ('\\' :: 'u' :: t)
  | c :: t => some (c.toNat, t)
  | [] => none

theorem char_toNat_range (c : Char) :
    c.toNat < 55296 ∨ (57344 ≤ c.toNat ∧ c.toNat < 1114112) := by
  have h : c.toNat.isValidChar := c.valid
  unfold Nat.isValidChar at h
  omega

theorem readChar_unitEscape (n : ℕ) (r : List Char) :
    readChar (unitEscape n ++ r) = readUnits (unitEscape n ++ r) := rfl

theorem readChar_plain {c : Char} (h : c ≠ '\\') (r : List Char) :
    readChar (c :: r) = some (c.toNat, r) := by
  unfold readChar
  split <;> simp_all

theorem readChar_escapeChar (c : Char) (r : List Char) :
    readChar (escapeChar c ++ r) = some (c.toNat, r) := by
  unfold escapeChar
  split
  · subst c; rfl
  split
  · subst c; rfl
  split
  · subst c; rfl
  split
  · subst c; rfl
  split
  · subst c; rfl
  split
  · next h => rw [h]; rfl
  split
  · next h => rw [h]; rfl
  split
  · next h _ _ _ _ _ _ => exact readChar_plain h r
  have hrange := char_toNat_range c
  split
  · next h =>
    rw [readChar_unitEscape, readUnits, readUnit_unitEscape h]
    simp only [ite_eq_left_iff]
    omega
  · next h =>
    rw [List.append_assoc, readChar_unitEscape, readUnits, readUnit_unitEscape (by omega)]
    simp only
    rw [if_neg (by omega), readUnit_unitEscape (by omega)]
    simp only [Option.some.injEq, Prod.mk.injEq, and_true]
    omega

theorem escapeChar_delimited : Delimited (fun _ ↦ True) escapeChar := by
  intro c d r s _ _ he
  have hc := readChar_escapeChar c r
  rw [he, readChar_escapeChar d s, Option.some.injEq, Prod.mk.injEq] at hc
  exact ⟨Char.toNat_inj.1 hc.1.symm, hc.2.symm⟩

theorem escapeChar_head (c : Char) : ∃ d t, escapeChar c = d :: t ∧ d ≠ '"' := by
  unfold escapeChar
  split_ifs with h
  case pos => exact ⟨_, _, rfl, by decide⟩
  all_goals first
    | exact ⟨_, _, rfl, by decide⟩
    | exact ⟨_, _, rfl, h⟩

theorem escapeText_delimited : Delimited (fun _ ↦ True) escapeText := by
  intro a
  induction a with
  | nil =>
    intro b r s _ _ he
    cases b with
    | nil => exact ⟨rfl, (List.cons.inj he).2⟩
    | cons d b =>
      obtain ⟨x, t, hx, hne⟩ := escapeChar_head d
      simp only [escapeText, hx, List.cons_append, List.cons.injEq] at he
      exact absurd he.1.symm hne
  | cons c a ih =>
    intro b r s _ _ he
    cases b with
    | nil =>
      obtain ⟨x, t, hx, hne⟩ := escapeChar_head c
      simp only [escapeText, hx, List.cons_append, List.cons.injEq] at he
      exact absurd he.1 hne
    | cons d b =>
      simp only [escapeText, List.append_assoc] at he
      obtain ⟨hcd, ht⟩ := escapeChar_delimited trivial trivial he
      obtain ⟨hab, hrs⟩ := ih trivial trivial ht
      exact ⟨by rw [hcd, hab], hrs⟩

theorem stringText_delimited : Delimited (fun _ ↦ True) stringText := by
  intro a b r s hr hs he
  obtain ⟨hab, hrs⟩ := escapeText_delimited hr hs (List.cons.inj he).2
  exact ⟨String.toList_inj.1 hab, hrs⟩

end Escapes

/-- What may follow a value: nothing, a separator or a closing bracket. -/
def Stop (r : List Char) : Prop := ∀ c ∈ r.head?, c = ',' ∨ c = ']' ∨ c = '\x7d'

@[simp] theorem stop_nil : Stop [] := by simp [Stop]

@[simp] theorem stop_cons (c : Char) (r : List Char) :
    Stop (c :: r) ↔ c = ',' ∨ c = ']' ∨ c = '\x7d' := by simp [Stop]

theorem Stop.noDigit {r : List Char} (h : Stop r) : NoDigit r := by
  intro c hc
  rcases h c hc with rfl | rfl | rfl <;> decide

/-- What the first character of a text says about the value it belongs to. -/
def headKind (c : Char) : ℕ :=
  if c = 'n' then 0
  else if c = '"' then 1
  else if c = '[' then 2
  else if c = '\x7b' then 3
  else if c = ']' then 4
  else if c = 't' then 6
  else if c = 'f' then 7
  else 5

def Value.kind : Value → ℕ
  | .null => 0
  | .bool true => 6
  | .bool false => 7
  | .num _ => 5
  | .str _ => 1
  | .arr _ => 2
  | .obj _ => 3

theorem headKind_digit {c : Char} (h : c.isDigit = true) : headKind c = 5 := by
  unfold headKind
  split_ifs with h₀ h₁ h₂ h₃ h₄ h₅ h₆
  all_goals first
    | rfl
    | (subst c; exact absurd h (by decide))

theorem dumps_head (v : Value) : ∃ c t, dumps v = c :: t ∧ headKind c = v.kind := by
  cases v with
  | null => exact ⟨_, _, rfl, rfl⟩
  | bool b => cases b <;> exact ⟨_, _, rfl, rfl⟩
  | num n =>
    obtain ⟨c, t, ht, hc⟩ := intText_head n
    refine ⟨c, t, by rw [dumps, ht], ?_⟩
    rcases hc with rfl | hc
    · rfl
    · exact headKind_digit hc
  | str s => exact ⟨'"', escapeText s.toList, by rw [dumps, stringText], rfl⟩
  | arr items => exact ⟨'[', dumpsItems items, by rw [dumps], rfl⟩
  | obj fields => exact ⟨'\x7b', dumpsFields fields, by rw [dumps], rfl⟩

theorem kind_eq_of_dumps_append {v w : Value} {r s : List Char}
    (h : dumps v ++ r = dumps w ++ s) : v.kind = w.kind := by
  obtain ⟨c, t, hv, hc⟩ := dumps_head v
  obtain ⟨d, u, hw, hd⟩ := dumps_head w
  rw [hv, hw, List.cons_append, List.cons_append] at h
  rw [← hc, ← hd, (List.cons.inj h).1]

theorem Value.kind_ne_close : ∀ v : Value, v.kind ≠ headKind ']'
  | .null | .bool true | .bool false | .num _ | .str _ | .arr _ | .obj _ => by
    simp [Value.kind, headKind]

theorem dumps_ne_close (v : Value) (r s : List Char) : dumps v ++ r ≠ ']' :: s := by
  obtain ⟨c, t, hv, hc⟩ := dumps_head v
  rw [hv, List.cons_append]
  intro h
  rw [(List.cons.inj h).1] at hc
  exact v.kind_ne_close hc.symm

theorem stop_dumpsMoreItems (xs : List Value) (r : List Char) :
    Stop (dumpsMoreItems xs ++ r) := by
  cases xs <;> simp [dumpsMoreItems]

theorem stop_dumpsMoreFields (fs : List (String × Value)) (r : List Char) :
    Stop (dumpsMoreFields fs ++ r) := by
  rcases fs with _ | ⟨⟨k, v⟩, fs⟩ <;> simp [dumpsMoreFields]

mutual

theorem dumps_delimited : ∀ (a b : Value) (r s : List Char), Stop r → Stop s →
    dumps a ++ r = dumps b ++ s → a = b ∧ r = s
  | a, b, r, s, hr, hs, he => by
    have hk := kind_eq_of_dumps_append he
    match a, b with
    | .null, .null => exact ⟨rfl, by simpa [dumps] using he⟩
    | .bool true, .bool true => exact ⟨rfl, by simpa [dumps] using he⟩
    | .bool false, .bool false => exact ⟨rfl, by simpa [dumps] using he⟩
    | .num m, .num n =>
      simp only [dumps] at he
      obtain ⟨hmn, hrs⟩ := intText_delimited hr.noDigit hs.noDigit he
      exact ⟨by rw [hmn], hrs⟩
    | .str m, .str n =>
      simp only [dumps] at he
      obtain ⟨hmn, hrs⟩ := stringText_delimited trivial trivial he
      exact ⟨by rw [hmn], hrs⟩
    | .arr xs, .arr ys =>
      simp only [dumps, List.cons_append, List.cons.injEq, true_and] at he
      obtain ⟨hxy, hrs⟩ := dumpsItems_delimited xs ys r s he
      exact ⟨by rw [hxy], hrs⟩
    | .obj fs, .obj gs =>
      simp only [dumps, List.cons_append, List.cons.injEq, true_and] at he
      obtain ⟨hfg, hrs⟩ := dumpsFields_delimited fs gs r s he
      exact ⟨by rw [hfg], hrs⟩

theorem dumpsItems_delimited : ∀ (xs ys : List Value) (r s : List Char),
    dumpsItems xs ++ r = dumpsItems ys ++ s → xs = ys ∧ r = s
  | [], [], r, s, he => ⟨rfl, by simpa [dumpsItems] using he⟩
  | [], y :: ys, r, s, he => by
    simp only [dumpsItems, List.append_assoc, List.cons_append, List.nil_append] at he
    exact absurd he.symm (dumps_ne_close y _ _)
  | x :: xs, [], r, s, he => by
    simp only [dumpsItems, List.append_assoc, List.cons_append, List.nil_append] at he
    exact absurd he (dumps_ne_close x _ _)
  | x :: xs, y :: ys, r, s, he => by
    simp only [dumpsItems, List.append_assoc] at he
    obtain ⟨hx, ht⟩ := dumps_delimited x y _ _ (stop_dumpsMoreItems xs r)
      (stop_dumpsMoreItems ys s) he
    obtain ⟨hxs, hrs⟩ := dumpsMoreItems_delimited xs ys r s ht
    exact ⟨by rw [hx, hxs], hrs⟩

theorem dumpsMoreItems_delimited : ∀ (xs ys : List Value) (r s : List Char),
    dumpsMoreItems xs ++ r = dumpsMoreItems ys ++ s → xs = ys ∧ r = s
  | [], [], r, s, he => ⟨rfl, by simpa [dumpsMoreItems] using he⟩
  | [], y :: ys, r, s, he => by simp [dumpsMoreItems] at he
  | x :: xs, [], r, s, he => by simp [dumpsMoreItems] at he
  | x :: xs, y :: ys, r, s, he => by
    simp only [dumpsMoreItems, List.append_assoc, List.cons_append, List.cons.injEq,
      true_and] at he
    obtain ⟨hx, ht⟩ := dumps_delimited x y _ _ (stop_dumpsMoreItems xs r)
      (stop_dumpsMoreItems ys s) he
    obtain ⟨hxs, hrs⟩ := dumpsMoreItems_delimited xs ys r s ht
    exact ⟨by rw [hx, hxs], hrs⟩

theorem dumpsFields_delimited : ∀ (fs gs : List (String × Value)) (r s : List Char),
    dumpsFields fs ++ r = dumpsFields gs ++ s → fs = gs ∧ r = s
  | [], [], r, s, he => ⟨rfl, by simpa [dumpsFields] using he⟩
  | [], (l, w) :: gs, r, s, he => by simp [dumpsFields, stringText] at he
  | (k, v) :: fs, [], r, s, he => by simp [dumpsFields, stringText] at he
  | (k, v) :: fs, (l, w) :: gs, r, s, he => by
    simp only [dumpsFields, List.append_assoc, List.cons_append] at he
    obtain ⟨hk, ht⟩ := stringText_delimited trivial trivial he
    obtain ⟨hv, hu⟩ := dumps_delimited v w _ _ (stop_dumpsMoreFields fs r)
      (stop_dumpsMoreFields gs s) (List.cons.inj ht).2
    obtain ⟨hfs, hrs⟩ := dumpsMoreFields_delimited fs gs r s hu
    exact ⟨by rw [hk, hv, hfs], hrs⟩

theorem dumpsMoreFields_delimited : ∀ (fs gs : List (String × Value)) (r s : List Char),
    dumpsMoreFields fs ++ r = dumpsMoreFields gs ++ s → fs = gs ∧ r = s
  | [], [], r, s, he => ⟨rfl, by simpa [dumpsMoreFields] using he⟩
  | [], (l, w) :: gs, r, s, he => by simp [dumpsMoreFields] at he
  | (k, v) :: fs, [], r, s, he => by simp [dumpsMoreFields] at he
  | (k, v) :: fs, (l, w) :: gs, r, s, he => by
    simp only [dumpsMoreFields, List.append_assoc, List.cons_append, List.cons.injEq,
      true_and] at he
    obtain ⟨hk, ht⟩ := stringText_delimited trivial trivial he
    obtain ⟨hv, hu⟩ := dumps_delimited v w _ _ (stop_dumpsMoreFields fs r)
      (stop_dumpsMoreFields gs s) (List.cons.inj ht).2
    obtain ⟨hfs, hrs⟩ := dumpsMoreFields_delimited fs gs r s hu
    exact ⟨by rw [hk, hv, hfs], hrs⟩

end

theorem dumps_injective : Function.Injective dumps := by
  intro a b h
  exact (dumps_delimited a b [] [] stop_nil stop_nil (by rw [h])).1

end TokenHub.Lib.Json
