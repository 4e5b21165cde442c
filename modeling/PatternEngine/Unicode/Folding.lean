import PatternEngine.Unicode.Packed
/-!
# Case folding

Two characters differ only in case when they have one and the same simple folding. Folding a set
adds every character that differs only in case from one of its elements.
-/
namespace PatternEngine.Unicode

open PatternEngine.Expression

namespace Folding

/-- The characters that have a folding other than themselves, in runs `gap.count.shift`: the
gap from the start of the run before, the number of further characters, and the step between
them with the shift up (`p`) or down (`m`) to their foldings. -/
def table : String :=
  "1t.p.1pw 38.0.1plj b.m.1pw o.6.1pw 14.n.2p1 1e.2.2p1 7.7.2p1 h.m.2p1 1a.0.1m3d 1.2.2p1
    6.0.1m7g 2.0.1p5u 1.1.2p1 4.0.1p5q 1.0.1p1 2.1.1p5p 2.0.1p1 3.0.1p27 1.0.1p5m 1.0.1p5n
    1.0.1p1 2.0.1p5p 1.0.1p5r 2.0.1p5v 1.0.1p5t 1.0.1p1 4.0.1p5v 1.0.1p5x 2.0.1p5y 1.2.2p1
    6.0.1p62 1.0.1p1 2.0.1p62 3.0.1p1 2.0.1p62 1.0.1p1 2.1.1p61 2.1.2p1 4.0.1p63 1.0.1p1
    4.0.1p1 8.0.1p2 1.0.1p1 2.0.1p2 1.0.1p1 2.0.1p2 1.8.2p1 j.8.2p1 j.0.1p2 1.1.2p1 4.0.1m2p
    1.0.1m1k 1.j.2p1 14.0.1m3m 2.8.2p1 o.0.1p8bv 1.0.1p1 2.0.1m4j 1.0.1p8bs 3.0.1p1 2.0.1m5f
    1.0.1p1x 1.0.1p1z 1.4.2p1 73.0.1p38 17.1.2p1 6.0.1p1 9.0.1p38 7.0.1p12 2.2.1p11 4.0.1p1s
    2.1.1p1r 3.g.1pw i.8.1pw v.0.1p1 d.0.1p8 1.0.1mu 1.0.1mp 4.0.1mf 1.0.1mm 2.b.2p1
    o.0.1m1i 1.0.1m1c 3.0.1m1o 1.0.1m1s 2.0.1p1 2.0.1m7 1.0.1p1 3.2.1m3m 3.f.1p28 g.v.1pw
    28.g.2p1 16.q.2p1 1i.0.1pf 1.6.2p1 f.1b.2p1 2p.11.1p1c 29b.11.1p5ls 13.0.1p5ls 6.0.1p5ls
    mj.5.1m8 1oo.0.1m4su 1.0.1m4st 1.0.1m4sk 1.1.1m4si 2.0.1m4sj 1.0.1m4sc 1.0.1m4ro
    1.0.1pr7n 8.16.1m2bk 19.2.1m2bk 8z.22.2p1 4b.0.1m1m 3.0.1m5vj 2.1b.2p1 2w.7.1m8 g.5.1m8
    g.7.1m8 g.7.1m8 g.5.1m8 h.3.2m8 f.7.1m8 w.7.1m8 g.7.1m8 g.7.1m8 g.1.1m8 2.1.1m22 2.0.1m9
    2.0.1m5j9 a.3.1m2e 4.0.1m9 c.1.1m8 2.1.1m2s e.1.1m8 2.1.1m34 2.0.1m7 c.1.1m3k 2.1.1m3i
    2.0.1m9 8a.0.1m5st 4.0.1m6gv 1.0.1m6di 7.0.1ps 1a.f.1pg z.0.1p1 mr.p.1pq 1fu.1b.1p1c
    2o.0.1p1 2.0.1m8af 1.0.1m2xy 1.0.1m89z 3.2.2p1 6.0.1m8bg 1.0.1m8al 1.0.1m8bj 1.0.1m8bi
    2.0.1p1 3.0.1p1 9.1.1m8cf 2.1d.2p1 2z.1.2p1 7.0.1p1 nym.m.2p1 1s.d.2p1 4i.6.2p1 g.u.2p1
    1z.1.2p1 4.0.1mr9g 1.4.2p1 d.0.1p1 2.0.1mwmg 3.1.2p1 6.9.2p1 k.0.1mwn8 1.0.1mwnj
    1.0.1mwnf 1.0.1mwn5 1.0.1mwn8 2.0.1mwlu 1.0.1mwmi 1.0.1mwlx 1.0.1pps 1.7.2p1 g.0.1m1c
    1.0.1mwn7 1.0.1mraw 1.1.2p1 9.0.1p1 6.1.2p1 v.0.1p1 or.27.1mtzk gj5.p.1pw yn.13.1p14
    4w.z.1p14 5c.a.1p13 c.e.1p13 g.6.1p13 8.1.1p13 1d8.1e.1p1s 2e8.v.1pw gww.v.1pw o8w.x.1py"

def run (start count stride shift : Nat) (up : Bool) : List (Nat × Nat) :=
  (List.range (count + 1)).map fun i =>
    let c := start + i * stride
    (c, if up then c + shift else c - shift)

def runsFrom (start : Nat) : List (List Char) → List (Nat × Nat)
  | [] => []
  | word :: rest =>
    let gap := word.takeWhile (· != '.')
    let tail := (word.dropWhile (· != '.')).drop 1
    let count := tail.takeWhile (· != '.')
    let last := (tail.dropWhile (· != '.')).drop 1
    let first := start + number36 gap
    run first (number36 count) (number36 (last.take 1)) (number36 (last.drop 2))
      ((last.drop 1).head? == some 'p') ++ runsFrom first rest

/-- Every character with a folding other than itself, and that folding. -/
def pairs : List (Nat × Nat) := runsFrom 0 (words table.toList)

/-- Adds to a set all characters that differ only in case from an element. -/
def close (s : Charset) : Charset :=
  let folded := pairs.foldl
    (fun set (c, f) => if s.contains c then Charset.insert f f set else set) s
  pairs.foldl (fun set (c, f) => if folded.contains f then Charset.insert c c set else set) folded

end Folding

end PatternEngine.Unicode
