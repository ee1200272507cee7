import Clonebox.Format.State
import Clonebox.System.Kernel

/-! # The bytes of an event on its connection

`send_event` writes the event and a line feed, and `event_loop` reads a connection line by line. A
connection may end anywhere, with the shim or with an error of the write. `ser` and `de` are what
`serde_json` makes of an event and of a line, and `lines` is what `BufReader::lines` makes of a
connection. -/

namespace Clonebox
open Json

def lineFeed : UInt8 := 0x0a
def carriageReturn : UInt8 := 0x0d

/-- Text without a line end in it. -/
structure IsLine (line : List UInt8) : Prop where
  feed : lineFeed ∉ line
  carriage : carriageReturn ∉ line
  text : (Utf8.decode line).isSome = true

/-- What `BufReader::lines` promises: each line that was ended, what is left at the end of the
connection if there is something, and nothing else. It ends at a line that is no text. -/
structure LineReader (lines : List UInt8 → List (List UInt8)) : Prop where
  next : ∀ {line}, IsLine line → ∀ bs, lines (line ++ lineFeed :: bs) = line :: lines bs
  last : ∀ {line}, IsLine line → line ≠ [] → lines line = [line]
  rest : ∀ {bs}, lineFeed ∉ bs → carriageReturn ∉ bs → ∀ line ∈ lines bs, line = bs

/-- What `send_event` writes. -/
def Event.message (ser : Event → List UInt8) (e : Event) : List UInt8 := ser e ++ [lineFeed]

/-- The events that the task of a connection hands to `update_status`: a line that is none is
skipped. -/
def receive (de : List UInt8 → Option Event) (lines : List UInt8 → List (List UInt8))
    (connection : List UInt8) : List Event :=
  (lines connection).filterMap de

/-- What the daemon has done when the task of a connection is over. -/
def Daemon.serve (de : List UInt8 → Option Event) (lines : List UInt8 → List (List UInt8)) (d : Daemon)
    (connection : List UInt8) : Daemon :=
  (receive de lines connection).foldl (fun d e => d.updateStatus e) d

/-! ### Messages -/

section
variable {closing : UInt8} {ser : Event → List UInt8} {de : List UInt8 → Option Event}
  {lines : List UInt8 → List (List UInt8)} {e : Event}
  (H : Codec.Laws closing Event.Typed ser de) (hline : ∀ e : Event, e.Typed → IsLine (ser e))
  (hlines : LineReader lines)
include H hline hlines

/-- A whole message is an event, whatever follows it on the connection. -/
theorem receive_message (h : e.Typed) (bs : List UInt8) :
    receive de lines (e.message ser ++ bs) = e :: receive de lines bs := by
  rw [receive, Event.message, List.append_assoc, List.singleton_append, hlines.next (hline e h),
    List.filterMap_cons_some (H.roundTrip h)]
  rfl

omit hline in
theorem receive_nil (h : e.Typed) : receive de lines [] = [] := by
  rw [receive, List.filterMap_eq_nil_iff]
  intro line hmem
  obtain rfl := hlines.rest (fun hm => by cases hm) (fun hm => by cases hm) line hmem
  exact H.de_nil h

/-- A message that was cut is an event if only the line feed is missing. -/
theorem receive_cut (h : e.Typed) {cut : List UInt8} (hcut : cut <+: e.message ser) :
    receive de lines cut = if (ser e).length ≤ cut.length then [e] else [] := by
  rcases List.prefix_concat_iff.mp hcut with rfl | hcut
  · have hlen : (ser e).length ≤ (ser e ++ [lineFeed]).length := by simp
    have hmessage := receive_message H hline hlines h []
    rw [List.append_nil, receive_nil H hlines h] at hmessage
    rw [if_pos hlen]
    exact hmessage
  · by_cases hwhole : cut = ser e
    · have hne : ser e ≠ [] := by
        obtain ⟨r, hr⟩ := H.closed h
        simp [hr]
      rw [hwhole, if_pos le_rfl, receive, hlines.last (hline e h) hne, List.filterMap_cons_some (H.roundTrip h)]
      rfl
    · have hlen : ¬(ser e).length ≤ cut.length := fun hle => hwhole (hcut.eq_of_length_le hle)
      rw [if_neg hlen, receive, List.filterMap_eq_nil_iff]
      intro line hmem
      obtain rfl := hlines.rest (fun hm => (hline e h).feed (hcut.subset hm))
        (fun hm => (hline e h).carriage (hcut.subset hm)) line hmem
      exact H.incomplete h hcut hwhole

/-- Wherever a connection is cut, the daemon processes just the events that were sent whole, in
order: nothing is made of the rest of the last one, unless only its line feed is missing. -/
theorem connection_processed {es : List Event} (hes : ∀ e ∈ es, e.Typed) (h : e.Typed)
    {cut : List UInt8} (hcut : cut <+: e.message ser) (d : Daemon) :
    d.serve de lines (es.flatMap (Event.message ser) ++ cut) =
      (es ++ if (ser e).length ≤ cut.length then [e] else []).foldl (fun d e => d.updateStatus e) d := by
  have hreceive : receive de lines (es.flatMap (Event.message ser) ++ cut) =
      es ++ if (ser e).length ≤ cut.length then [e] else [] := by
    induction es with
    | nil => exact receive_cut H hline hlines h hcut
    | cons e' es ih =>
      rw [List.forall_mem_cons] at hes
      rw [List.flatMap_cons, List.append_assoc, receive_message H hline hlines hes.1, ih hes.2]
      rfl
  rw [Daemon.serve, hreceive]

/-- The step that delivers an event is the task of a connection with its message. -/
theorem deliver_serves {w w' : World} {k t : Nat} (hk : w.events[k]? = some (t, e)) (h : e.Typed)
    (hw : w.env (.deliver k) = some w') : w'.daemon = w.daemon.serve de lines (e.message ser) := by
  have hmessage := receive_message H hline hlines h []
  rw [List.append_nil, receive_nil H hlines h] at hmessage
  simp only [World.env, hk, Option.some.injEq] at hw
  rw [← hw, Daemon.serve, hmessage]
  rfl

end

/-! ### Lines -/

/-- Put a byte in front of the first line. -/
def pushByte (b : UInt8) : List (List UInt8) → List (List UInt8)
  | [] => [[b]]
  | line :: lines => (b :: line) :: lines

/-- What is between the line feeds, and behind the last one if there is something. -/
def linesOf : List UInt8 → List (List UInt8)
  | [] => []
  | b :: bs => if b = lineFeed then [] :: linesOf bs else pushByte b (linesOf bs)

/-- The lines up to the first that is no text, of a connection without carriage returns. -/
def textLines (connection : List UInt8) : List (List UInt8) :=
  (linesOf connection).takeWhile fun line => (Utf8.decode line).isSome

theorem linesOf_append {line : List UInt8} (h : lineFeed ∉ line) (bs : List UInt8) :
    linesOf (line ++ lineFeed :: bs) = line :: linesOf bs := by
  induction line with
  | nil => rfl
  | cons b line ih =>
    rw [List.mem_cons, not_or] at h
    rw [List.cons_append, linesOf, if_neg (Ne.symm h.1), ih h.2]
    rfl

theorem linesOf_last {line : List UInt8} (h : lineFeed ∉ line) (hne : line ≠ []) :
    linesOf line = [line] := by
  induction line with
  | nil => exact absurd rfl hne
  | cons b line ih =>
    rw [List.mem_cons, not_or] at h
    rw [linesOf, if_neg (Ne.symm h.1)]
    cases line with
    | nil => rfl
    | cons b' line => rw [ih h.2 (List.cons_ne_nil b' line)]; rfl

theorem lineReader_textLines : LineReader textLines where
  next := by
    intro line h bs
    rw [textLines, linesOf_append h.feed, List.takeWhile_cons, if_pos h.text]
    rfl
  last := by
    intro line h hne
    rw [textLines, linesOf_last h.feed hne, List.takeWhile_cons, if_pos h.text]
    rfl
  rest := by
    intro bs hfeed _ line hmem
    have hmem := List.takeWhile_subset _ hmem
    by_cases hnil : bs = []
    · subst hnil
      cases hmem
    · rw [linesOf_last hfeed hnil] at hmem
      exact List.mem_singleton.mp hmem

theorem toBytes_line (e : Event) : IsLine e.toBytes := by
  have hvisible {b : UInt8} (hb : b.toNat < 0x20) : b ∉ e.toBytes := by
    intro h
    obtain ⟨c, hc, hcode⟩ := Utf8.ascii_mem (Nat.lt_trans hb (by decide)) h
    have hprinted := print_visible e.proper_toJson c hc
    rw [hcode] at hprinted
    exact absurd hprinted (by omega)
  refine ⟨hvisible (by decide), hvisible (by decide), ?_⟩
  rw [Event.toBytes, toBytes, Utf8.decode_encode]
  rfl

/-- The connection ends within the second event. -/
theorem connection_processed_sample :
    Daemon.new.serve Event.ofBytes textLines ([⟨"c", .created, some 0⟩].flatMap (Event.message Event.toBytes) ++
        ((⟨"c", .stopped, some 0⟩ : Event).message Event.toBytes).take 20) =
      Daemon.new.updateStatus ⟨"c", .created, some 0⟩ := by
  have htyped (st : ContainerState) : (Event.mk "c" st (some 0)).Typed := by
    refine ⟨fun c hc => ?_⟩
    cases hc
    rfl
  have hshort : ¬(Event.mk "c" .stopped (some 0)).toBytes.length ≤
      ((Event.mk "c" .stopped (some 0)).message Event.toBytes |>.take 20).length := by
    decide +kernel
  have hserved := connection_processed Event.json_laws (fun e _ => toBytes_line e) lineReader_textLines
    (List.forall_mem_singleton.mpr (htyped .created)) (htyped .stopped) (List.take_prefix 20 _) .new
  rw [if_neg hshort] at hserved
  exact hserved

end Clonebox
