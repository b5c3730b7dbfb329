import EndpointAudit.Data.Basic

/-!
# Limits of documents

What a format asks of a document, all the way down: a number of levels, and conditions on its
numbers and on the keys of its mappings.
-/

namespace EndpointAudit.Doc

/-- A document of at most `depth` levels, whose numbers and keys satisfy `number` and `key`. -/
inductive Conforms (number : Int → Prop) (key : String → Prop) : (depth : Nat) → Doc → Prop where
  | null {depth : Nat} : Conforms number key depth .null
  | bool {depth : Nat} (b : Bool) : Conforms number key depth (.bool b)
  | int {depth : Nat} {n : Int} (h : number n) : Conforms number key depth (.int n)
  | text {depth : Nat} (s : String) : Conforms number key depth (.text s)
  | list {depth : Nat} {ds : List Doc} (h : ∀ d ∈ ds, Conforms number key depth d) :
    Conforms number key (depth + 1) (.list ds)
  | map {depth : Nat} {es : List (String × Doc)} (hkeys : ∀ e ∈ es, key e.1)
    (h : ∀ e ∈ es, Conforms number key depth e.2) : Conforms number key (depth + 1) (.map es)

namespace Conforms

variable {number number' : Int → Prop} {key key' : String → Prop} {depth : Nat}

theorem mono {d : Doc} (h : d.Conforms number key depth) (hnumber : ∀ n, number n → number' n)
    (hkey : ∀ k, key k → key' k) : d.Conforms number' key' depth := by
  induction h with
  | null => exact .null
  | bool b => exact .bool b
  | int h => exact .int (hnumber _ h)
  | text s => exact .text s
  | list _ ih => exact .list ih
  | map hkeys _ ih => exact .map (fun e he => hkey e.1 (hkeys e he)) ih

theorem listMap {α : Type} {write : α → Doc} {as : List α}
    (h : ∀ a ∈ as, (write a).Conforms number key depth) :
    (Doc.list (as.map write)).Conforms number key (depth + 1) := by
  apply Conforms.list
  intro d hd
  obtain ⟨a, ha, rfl⟩ := List.mem_map.mp hd
  exact h a ha

end Conforms

end EndpointAudit.Doc
