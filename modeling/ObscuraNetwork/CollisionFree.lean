import ObscuraNetwork.PerfectTree
import Mathlib.Data.List.Nodup

namespace ObscuraNetwork

section CollisionFree

variable {α β γ : Type}

/-- No two of the given messages collide. Over all messages no function into a finite type is
collision-free, so the messages are always those of the computations at hand. -/
abbrev CollisionFreeOn (H : α → β) (messages : Set α) : Prop := Set.InjOn H messages

theorem collisionFreeOn_of_nodup {H : α → β} {messages : Set α} {l : List α}
    (cover : ∀ m ∈ messages, m ∈ l) (distinct : (l.map H).Nodup) : CollisionFreeOn H messages :=
  fun x hx y hy h => List.inj_on_of_nodup_map distinct (cover x hx) (cover y hy) h

/-- A node hash that encodes its two children injectively inherits freedom from collisions. -/
theorem pairInjOn_of_collisionFree {H : γ → α} {encode : α → α → γ} {messages : Set γ}
    (cf : CollisionFreeOn H messages)
    (encode_inj : ∀ a b a' b', encode a b = encode a' b' → a = a' ∧ b = b') :
    PairInjOn (fun a b => H (encode a b)) {p | encode p.1 p.2 ∈ messages} := by
  intro p hp q hq h
  obtain ⟨hl, hr⟩ := encode_inj _ _ _ _ (cf hp hq h)
  exact Prod.ext hl hr

end CollisionFree

end ObscuraNetwork
