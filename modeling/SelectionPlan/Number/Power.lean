/-!
# Powers of two and of ten

The two kinds of powers that the number formats are made of. They are named functions, so that
they mean the same whatever instances of the power operator are in scope.
-/
namespace SelectionPlan

def twoTo (exponent : Nat) : Nat := Nat.pow 2 exponent

def tenTo (exponent : Nat) : Nat := Nat.pow 10 exponent

end SelectionPlan
