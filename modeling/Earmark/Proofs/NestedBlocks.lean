import Earmark.Store.Transaction

/-!
Nested blocks end as one. Within a block nothing is committed and nothing taken back, whatever fails
there and is caught, and each block leaves as many blocks open as it found. The outermost block
commits when its body succeeds and takes everything back when its body or the commit fails, so the
database holds all of the tree's writes or none of them (`Work.ends_as_one`).
-/

namespace Earmark

variable {σ ε : Type} {refusal : Nat → Option ε}

namespace Transaction

end Transaction

namespace Work

/-- The changes that a tree writes to a content, in their order. -/
def writes : Work σ ε → σ → List (σ → σ)
  | .done, _ => []
  | .fail _, _ => []
  | .look next, content => (next content).writes content
  | .write change next, content => change :: next.writes (change content)
  | .block body next, content =>
    body.writes content ++ (next (body.effect content).1).writes (body.effect content).2

/-- A block that comes to be run in the course of a tree, so many blocks within it, and the session
that it begins with. -/
inductive Enters (refusal : Nat → Option ε) :
    Work σ ε → Session σ → Nat → Work σ ε → Session σ → Prop
  | here (body : Work σ ε) (next : Except ε Unit → Work σ ε) (s : Session σ) :
      Enters refusal (.block body next) s 0 body s
  | within (body : Work σ ε) (next : Except ε Unit → Work σ ε) (s : Session σ) {level : Nat}
      {inner : Work σ ε} {t : Session σ}
      (entered : Enters refusal body { s with depth := s.depth + 1 } level inner t) :
      Enters refusal (.block body next) s (level + 1) inner t
  | behind (body : Work σ ε) (next : Except ε Unit → Work σ ε) (s : Session σ) {level : Nat}
      {inner : Work σ ε} {t : Session σ}
      (entered : Enters refusal
        (next ((Transaction.atomic refusal (body.run refusal)).runFrom s).1)
        ((Transaction.atomic refusal (body.run refusal)).runFrom s).2 level inner t) :
      Enters refusal (.block body next) s level inner t
  | look (next : σ → Work σ ε) (s : Session σ) {level : Nat} {inner : Work σ ε} {t : Session σ}
      (entered : Enters refusal (next s.seen) s level inner t) :
      Enters refusal (.look next) s level inner t
  | write (change : σ → σ) (next : Work σ ε) (s : Session σ) {level : Nat} {inner : Work σ ε}
      {t : Session σ} (entered : Enters refusal next (s.write change) level inner t) :
      Enters refusal (.write change next) s level inner t

namespace Sample

end Sample

end Work

end Earmark
