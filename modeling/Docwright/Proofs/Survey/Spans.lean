import Docwright.Proofs.Text.Slices
import Docwright.Survey.Extract

/-!
# The text of a span

A span is given by offsets among the bytes of a source file, and either may fall within a
character. If the bytes are those of a text, the text of the span is made of the characters of
that text that lie wholly inside, in their order. This holds for all offsets that count from the
start of the bytes, also behind their end or in the wrong order.
-/

namespace Docwright.Span

open Docwright.Text

theorem position_natCast (length offset : Nat) : position length offset = offset := by
  rw [position, if_neg (by omega), Int.toNat_natCast]

theorem bytes_eq_extract (start stop : Nat) (content : List UInt8) :
    (Span.mk (some start) (some stop)).bytes content = content.extract start stop := by
  simp [Span.bytes, position_natCast]

/-- The text of a span consists of the characters whose bytes all lie inside it, in order. -/
theorem text_has_whole_chars (s : String) (start stop : Nat) :
    (Span.mk (some start) (some stop)).text (Utf8.encode s.toList) =
      String.ofList (Utf8.charsBetween start stop s.toList) := by
  rw [Span.text, bytes_eq_extract, Utf8.decodeLenient_extract]

/-- The first and the last of three characters are cut. -/
example : (Span.mk (some 1) (some 8)).text (Utf8.encode "é漢😀".toList) = "漢" := by
  decide +kernel

end Docwright.Span
