import DalSchema.Render.Format
import Mathlib.Tactic.Choose

/-!
# What a sink is given

What is written does not depend on the sink: each writer hands every sink the same texts, one after
the other, for as long as the sink takes them (`Script.Delivers`). A sink that fails thus gets the
first of the texts that one without faults gets, and nothing else happens: `renderTo_limited`.
-/

namespace DalSchema

variable {σ ε : Type}

namespace Writing

theorem runFrom_bind_of_ok {α β : Type} {w : Writing σ ε α} {next : α → Writing σ ε β}
    {start after : σ} {a : α} (h : w.runFrom start = (.ok a, after)) :
    (w >>= next).runFrom start = (next a).runFrom after := by
  change (ExceptT.run w).run start = (.ok a, after) at h
  simp only [runFrom, ExceptT.run_bind, StateT.run_bind, h]
  rfl

theorem runFrom_bind_of_error {α β : Type} {w : Writing σ ε α} {next : α → Writing σ ε β}
    {start after : σ} {error : ε} (h : w.runFrom start = (.error error, after)) :
    (w >>= next).runFrom start = (.error error, after) := by
  change (ExceptT.run w).run start = (.error error, after) at h
  simp only [runFrom, ExceptT.run_bind, StateT.run_bind, h]
  rfl

theorem runFrom_adapt {ε' α : Type} (f : ε → ε') (w : Writing σ ε α) (start : σ) :
    runFrom start (ExceptT.adapt f w) =
      ((w.runFrom start).1.mapError f, (w.runFrom start).2) :=
  rfl

theorem ext_runFrom {α : Type} {w v : Writing σ ε α}
    (h : ∀ start, w.runFrom start = v.runFrom start) : w = v :=
  funext h

theorem adapt_bind {ε' α β : Type} (f : ε → ε') (w : Writing σ ε α) (next : α → Writing σ ε β) :
    ExceptT.adapt f (w >>= next) =
      (do let a ← ExceptT.adapt f w; ExceptT.adapt f (next a) : Writing σ ε' β) := by
  refine ext_runFrom fun start => ?_
  rcases h : w.runFrom start with ⟨error | a, after⟩
  · have hadapt : runFrom start (ExceptT.adapt f w) = (.error (f error), after) := by
      rw [runFrom_adapt, h]
      rfl
    rw [runFrom_adapt, runFrom_bind_of_error h, runFrom_bind_of_error hadapt]
    rfl
  · have hadapt : runFrom start (ExceptT.adapt f w) = (.ok a, after) := by
      rw [runFrom_adapt, h]
      rfl
    rw [runFrom_adapt, runFrom_bind_of_ok h, runFrom_bind_of_ok hadapt, runFrom_adapt]

end Writing

open Writing

namespace Sink

def writeAll (sink : Sink σ ε) (texts : List String) : Writing σ ε Unit := texts.forM sink.write

theorem writeAll_cons (sink : Sink σ ε) (text : String) (texts : List String) :
    sink.writeAll (text :: texts) = (do sink.write text; sink.writeAll texts) :=
  rfl

/-- Writes texts as parts of a rendering. -/
def putAll (sink : Sink σ ε) (texts : List String) : Writing σ (RenderFault ε) Unit :=
  texts.forM sink.put

theorem putAll_append (sink : Sink σ ε) (texts others : List String) :
    sink.putAll (texts ++ others) = (do sink.putAll texts; sink.putAll others) :=
  List.forM_append

theorem putAll_eq_adapt (sink : Sink σ ε) (texts : List String) :
    sink.putAll texts = ExceptT.adapt .sink (sink.writeAll texts) := by
  induction texts with
  | nil => rfl
  | cons text texts ih =>
    rw [writeAll_cons, adapt_bind, ← ih]
    rfl

theorem runFrom_putAll (sink : Sink σ ε) {texts : List String} {start after : σ}
    {result : Except ε Unit} (h : (sink.writeAll texts).runFrom start = (result, after)) :
    (sink.putAll texts).runFrom start = (result.mapError .sink, after) := by
  rw [putAll_eq_adapt, runFrom_adapt, h]

theorem runFrom_recorder (start texts : List String) :
    ((recorder : Sink _ ε).writeAll texts).runFrom start = (.ok (), start ++ texts) := by
  induction texts generalizing start with
  | nil =>
    rw [List.append_nil]
    rfl
  | cons text texts ih =>
    have hwrite : ((recorder : Sink _ ε).write text).runFrom start = (.ok (), start ++ [text]) :=
      rfl
    rw [writeAll_cons, runFrom_bind_of_ok hwrite, ih, List.append_assoc]
    rfl

theorem runFrom_buffer (start : String) (texts : List String) :
    ((buffer : Sink _ ε).writeAll texts).runFrom start = (.ok (), start ++ String.join texts) := by
  induction texts generalizing start with
  | nil =>
    rw [String.join_nil, String.append_empty]
    rfl
  | cons text texts ih =>
    have hwrite : ((buffer : Sink _ ε).write text).runFrom start = (.ok (), start ++ text) := rfl
    rw [writeAll_cons, runFrom_bind_of_ok hwrite, ih, String.append_assoc, String.join_cons]

theorem runFrom_write_limited (room : Nat) (error : ε) (text : String) (start : List String) :
    ((limited room error).write text).runFrom start =
      if start.length < room then (.ok (), start ++ [text]) else (.error error, start) := by
  have hget : runFrom start (get : Writing (List String) ε (List String)) = (.ok start, start) :=
    rfl
  rw [limited, runFrom_bind_of_ok hget]
  split <;> rfl

/-- A sink that has room for `n` more texts keeps the first `n` of those that follow. -/
theorem runFrom_limited (error : ε) (start texts : List String) (n : Nat) :
    ((limited (start.length + n) error).writeAll texts).runFrom start =
      (if n < texts.length then .error error else .ok (), start ++ texts.take n) := by
  induction texts generalizing start n with
  | nil =>
    have hroom : ¬n < ([] : List String).length := Nat.not_lt_zero n
    rw [List.take_nil, List.append_nil, if_neg hroom]
    rfl
  | cons text texts ih =>
    have hwrite := runFrom_write_limited (start.length + n) error text start
    rw [writeAll_cons]
    cases n with
    | zero =>
      rw [if_neg (by omega)] at hwrite
      have hlonger : 0 < (text :: texts).length := Nat.zero_lt_succ _
      rw [runFrom_bind_of_error hwrite, if_pos hlonger, List.take_zero, List.append_nil]
    | succ n =>
      rw [if_pos (by omega)] at hwrite
      have hroom : start.length + (n + 1) = (start ++ [text]).length + n := by
        rw [List.length_append, List.length_singleton]
        omega
      rw [runFrom_bind_of_ok hwrite, hroom, ih, List.append_assoc, List.take_succ_cons,
        List.length_cons]
      simp only [Nat.add_lt_add_iff_right, List.singleton_append]

end Sink

/-- A rendering that can be written to any sink. -/
abbrev Script := ∀ σ ε : Type, Sink σ ε → Writing σ (RenderFault ε) Unit

namespace Script

/-- Every sink is given these texts, one after the other. -/
def Delivers (p : Script) (texts : List String) : Prop :=
  ∀ (σ ε : Type) (sink : Sink σ ε), p σ ε sink = sink.putAll texts

theorem delivers_put (text : String) : Delivers (fun _ _ sink => sink.put text) [text] := by
  intro σ ε sink
  exact (bind_pure_unit (x := sink.put text)).symm

theorem delivers_nothing : Delivers (fun _ _ _ => pure ()) [] := by
  intro σ ε sink
  rfl

theorem Delivers.seq {p q : Script} {texts others : List String} (hp : p.Delivers texts)
    (hq : q.Delivers others) :
    Delivers (fun σ ε sink => do p σ ε sink; q σ ε sink) (texts ++ others) := by
  intro σ ε sink
  rw [Sink.putAll_append, ← hp σ ε sink, ← hq σ ε sink]

section

variable {α : Type} {write : α → Bool → Script} {body : α → List String}
  {between ending : List String} (hmore : ∀ x, (write x true).Delivers (body x ++ between))
  (hlast : ∀ x, (write x false).Delivers (body x ++ ending))

include hmore hlast

theorem delivers_zipIdx (x : α) (xs : List α) (first : Nat) :
    Delivers (fun σ ε sink => ((x :: xs).zipIdx first).forM fun (y, i) =>
        write y (i != first + xs.length) σ ε sink)
      (between.intercalate ((x :: xs).map body) ++ ending) := by
  induction xs generalizing x first with
  | nil =>
    have hstop : (first != first + ([] : List α).length) = false := bne_self_eq_false first
    change Delivers (fun σ ε sink => do
      write x (first != first + ([] : List α).length) σ ε sink
      pure ()) _
    rw [hstop, List.map_singleton, List.intercalate_singleton, ← List.append_nil (_ ++ _)]
    exact (hlast x).seq delivers_nothing
  | cons y xs ih =>
    have hgo : (first != first + (y :: xs).length) = true := by simp
    have hlength : first + (y :: xs).length = first + 1 + xs.length := by
      rw [List.length_cons]
      omega
    change Delivers (fun σ ε sink => do
      write x (first != first + (y :: xs).length) σ ε sink
      ((y :: xs).zipIdx (first + 1)).forM fun (z, i) =>
        write z (i != first + (y :: xs).length) σ ε sink) _
    rw [hgo, hlength, List.map_cons, List.map_cons, List.intercalate_cons_cons, List.append_assoc]
    exact (hmore x).seq (ih y (first + 1))

/-- The last element is told apart by its index, and gets `ending` in the place of `between`. -/
theorem Delivers.forEach (xs : List α) :
    Delivers (fun σ ε sink => Writing.forEach xs fun x more => write x more σ ε sink)
      (if xs = [] then [] else between.intercalate (xs.map body) ++ ending) := by
  cases xs with
  | nil => exact delivers_nothing
  | cons x xs =>
    have hx := delivers_zipIdx hmore hlast x xs 0
    rw [Nat.zero_add] at hx
    exact hx

end

/-- Every sink is given this text, in parts that do not depend on the sink. -/
def Spells (p : Script) (text : String) : Prop :=
  ∃ texts, p.Delivers texts ∧ String.join texts = text

theorem Delivers.spells {p : Script} {texts : List String} (h : p.Delivers texts) :
    p.Spells (String.join texts) :=
  ⟨texts, h, rfl⟩

/-- What is given to every sink in parts can be had as a whole. -/
theorem Spells.text_eq {p : Script} {text : String} (h : p.Spells text) :
    (p _ Empty .buffer).text = .ok text := by
  obtain ⟨texts, hdelivers, hjoin⟩ := h
  have hrun := Sink.runFrom_putAll (.buffer : Sink String Empty) (Sink.runFrom_buffer "" texts)
  rw [Writing.text, hdelivers, hrun, String.empty_append, hjoin]
  rfl

theorem Spells.of_eq {p : Script} {text other : String} (h : p.Spells text) (heq : text = other) :
    p.Spells other :=
  heq ▸ h

theorem spells_put (text : String) : Spells (fun _ _ sink => sink.put text) text :=
  ⟨[text], delivers_put text, by rw [String.join_cons, String.join_nil, String.append_empty]⟩

theorem spells_nothing : Spells (fun _ _ _ => pure ()) "" := ⟨[], delivers_nothing, rfl⟩

theorem Spells.seq {p q : Script} {text more : String} (hp : p.Spells text) (hq : q.Spells more) :
    Spells (fun σ ε sink => do p σ ε sink; q σ ε sink) (text ++ more) := by
  obtain ⟨texts, htexts, rfl⟩ := hp
  obtain ⟨others, hothers, rfl⟩ := hq
  exact ⟨texts ++ others, htexts.seq hothers, String.join_append⟩

/-- Something that is left out under a condition, and what follows it in either case. -/
theorem Spells.optional {p q : Script} {text more : String} (b : Bool) (hp : p.Spells text)
    (hq : q.Spells more) :
    Spells (fun σ ε sink => if b then (do p σ ε sink; q σ ε sink) else q σ ε sink)
      ((if b then text else "") ++ more) := by
  cases b with
  | true => exact hp.seq hq
  | false => exact String.empty_append ▸ hq

theorem Spells.forM {α : Type} {write : α → Script} {text : α → String}
    (h : ∀ x, (write x).Spells (text x)) (xs : List α) :
    Spells (fun σ ε sink => xs.forM fun x => write x σ ε sink) (String.join (xs.map text)) := by
  induction xs with
  | nil => exact spells_nothing
  | cons x xs ih =>
    rw [List.map_cons, String.join_cons]
    exact (h x).seq ih

theorem join_intercalate (between : List String) (parts : List (List String)) :
    String.join (between.intercalate parts) =
      (String.join between).intercalate (parts.map String.join) := by
  induction parts with
  | nil => rfl
  | cons part parts ih =>
    cases parts with
    | nil => rw [List.intercalate_singleton, List.map_singleton, String.intercalate_singleton]
    | cons next parts =>
      rw [List.intercalate_cons_cons, String.join_append, String.join_append, ih]
      simp only [List.map_cons, String.intercalate_cons_cons]

theorem Spells.forEach {α : Type} {body : α → Script} {tail : Bool → Script} {text : α → String}
    {between ending : String} (hbody : ∀ x, (body x).Spells (text x))
    (hmore : (tail true).Spells between) (hlast : (tail false).Spells ending) (xs : List α) :
    Spells
      (fun σ ε sink => Writing.forEach xs fun x more => do body x σ ε sink; tail more σ ε sink)
      (if xs = [] then "" else between.intercalate (xs.map text) ++ ending) := by
  choose parts hparts hjoin using hbody
  obtain ⟨betweens, hbetweens, rfl⟩ := hmore
  obtain ⟨endings, hendings, rfl⟩ := hlast
  refine ⟨_, Delivers.forEach (fun x => (hparts x).seq hbetweens)
    (fun x => (hparts x).seq hendings) xs, ?_⟩
  split
  · rfl
  · rw [String.join_append, join_intercalate, List.map_map]
    simp only [Function.comp_def, hjoin]

end Script

end DalSchema
