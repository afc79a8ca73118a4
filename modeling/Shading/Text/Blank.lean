/-!
White space, as Unicode defines the property, and its removal from the ends of a text.
-/

namespace Shading.Text

def isBlank (c : Char) : Bool :=
  let n := c.toNat
  (0x9 ≤ n && n ≤ 0xD) || n == 0x20 || n == 0x85 || n == 0xA0 || n == 0x1680 ||
    (0x2000 ≤ n && n ≤ 0x200A) || n == 0x2028 || n == 0x2029 || n == 0x202F || n == 0x205F ||
    n == 0x3000

def trim (text : List Char) : List Char :=
  ((text.dropWhile isBlank).reverse.dropWhile isBlank).reverse

-- The pieces between the occurrences of a separator. There is always at least one.
def cutAt (separator : Char) : List Char → List (List Char)
  | []        => [[]]
  | c :: rest =>
    if c = separator then [] :: cutAt separator rest
    else
      match cutAt separator rest with
      | []              => [[c]]
      | piece :: pieces => (c :: piece) :: pieces

end Shading.Text
