/- The Unicode property White_Space, and the cut of a text to what lies between its
   first and its last other character. -/
namespace BoxScore.Text

def isWhiteSpace (c : Char) : Bool :=
  let code := c.toNat
  (0x0009 ≤ code && code ≤ 0x000D) || code == 0x0020 || code == 0x0085 || code == 0x00A0 ||
    code == 0x1680 || (0x2000 ≤ code && code ≤ 0x200A) || code == 0x2028 || code == 0x2029 ||
    code == 0x202F || code == 0x205F || code == 0x3000

def trim (text : String) : String :=
  let inner := text.toList.dropWhile isWhiteSpace
  String.ofList (inner.reverse.dropWhile isWhiteSpace).reverse

end BoxScore.Text
