/-!
# Adding over lists

`total` adds a weight over a list: bytes over the steps of a script, visitors over workers, words
over latencies.
-/

namespace StaticHttp

/-- The sum of a weight over a list. -/
def total {β : Type} (weight : β → Nat) : List β → Nat
  | [] => 0
  | item :: items => weight item + total weight items

end StaticHttp
