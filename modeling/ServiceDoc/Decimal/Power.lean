/-! Powers of two, which bound machine words, and of ten, which place decimal digits. -/
namespace ServiceDoc.Decimal

def twoTo (n : Nat) : Nat := Nat.pow 2 n

def tenTo (n : Nat) : Nat := Nat.pow 10 n

end ServiceDoc.Decimal
