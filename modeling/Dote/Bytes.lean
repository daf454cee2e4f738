import Mathlib.Data.List.Basic

/-! Byte strings. A `std::string`, a `std::vector<char>` and what a C string
holds before its NUL are all lists of bytes. -/
namespace Dote

abbrev Bytes := List UInt8

def bytes (s : String) : Bytes := s.toList.map Char.toUInt8

end Dote
