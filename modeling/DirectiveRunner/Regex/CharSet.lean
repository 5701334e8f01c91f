import DirectiveRunner.Text.Blank
import DirectiveRunner.Text.Case
import DirectiveRunner.Text.Quoted
/-!
# Sets of characters

The sets that regular expressions are built from: ranges, classes that Unicode defines, and what is
made of them. `has` decides membership, and a set with `anyCase` holds a character as soon as the set
holds the same letter in some case.
-/

namespace DirectiveRunner.Regex

/-- A class of characters that Unicode defines. -/
inductive UnicodeClass where
  | letter | upperLetter | lowerLetter | mark | number | decimal | punctuation | symbol | separator
  | alphabetic | blank | word
deriving DecidableEq, Repr

def UnicodeClass.has : UnicodeClass → Char → Bool
  | letter, c => Text.isAlphabetic c && !Text.isMark c && !Text.isNumber c && !Text.isWideSymbol c
  | upperLetter, c => Text.isUpperLetter c
  | lowerLetter, c => Text.isLowerLetter c
  | mark, c => Text.isMark c
  | number, c => Text.isNumber c
  | decimal, c => Text.isDecimal c
  | punctuation, c =>
    if c.toNat < 0x80 then c ∈ "!\"#%&'()*,-./:;?@[\\]_\x7b\x7d".toList else Text.isWidePunctuation c
  | symbol, c =>
    if c.toNat < 0x80 then c ∈ "$+<=>^|~".toList || c.toNat = 0x60 else Text.isWideSymbol c
  | separator, c => Text.isBlank c && !(0x09 ≤ c.toNat && c.toNat ≤ 0x0D) && c.toNat ≠ 0x85
  | alphabetic, c => Text.isAlphabetic c
  | blank, c => Text.isBlank c
  | word, c => Text.isWord c

inductive CharSet where
  /-- The characters from one to another. -/
  | range (lo hi : Char)
  | unicode (u : UnicodeClass)
  | empty
  | compl (s : CharSet)
  | union (s t : CharSet)
  | inter (s t : CharSet)
  /-- The characters of a set in every case. -/
  | anyCase (s : CharSet)
deriving DecidableEq, Repr

namespace CharSet

def has : CharSet → Char → Bool
  | range lo hi, c => lo ≤ c && c ≤ hi
  | unicode u, c => u.has c
  | empty, _ => false
  | compl s, c => !s.has c
  | union s t, c => s.has c || t.has c
  | inter s t, c => s.has c && t.has c
  | anyCase s, c => s.has c || (Text.caseMates c).any s.has

def single (c : Char) : CharSet := range c c

def diff (s t : CharSet) : CharSet := inter s (compl t)

def symmDiff (s t : CharSet) : CharSet := union (diff s t) (diff t s)

def allBut (cs : List Char) : CharSet := compl (cs.foldl (fun s c => union s (single c)) empty)

theorem has_single (c d : Char) : (single c).has d = decide (d = c) := by
  simp only [single, has]
  rw [Bool.eq_iff_iff]
  simp only [Bool.and_eq_true, decide_eq_true_eq]
  constructor
  · rintro ⟨h₁, h₂⟩
    exact Char.le_antisymm h₂ h₁
  · rintro rfl
    exact ⟨Char.le_refl _, Char.le_refl _⟩

end CharSet

end DirectiveRunner.Regex
