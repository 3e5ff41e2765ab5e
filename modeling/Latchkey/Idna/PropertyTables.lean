/-!
# Properties of characters in domains, as tables

Properties of characters, from U+0000 on, in runs. Only characters that may stand in a domain count;
all others belong to whatever run they interrupt. The length of a run has the base thirty-six, and
so has a combining class, which stands behind it; other values are a letter in front of it.
-/

namespace Latchkey.Idna

/-- Combining classes: the length of a run, a point and the class. -/
def combiningText : String :=
  "lc.0 l.6e 1.6g 4.64 1.6g 1.60 5.64 2.5m 4.64 2.5m b.64 5.1 4.64 a.6e 3.64 3.6e 3.64 3.6e 4.64
1.6e 1.6g 2.64 1.6e 1.6h 2.6i 1.6h 2.6i 1.6h e.6e 7m.0 5.6e 7d.0 1.64 4.6e 1.64 3.6e 1.66 1.64
6.6e 6.64 2.6e 1.64 2.6e 1.66 1.6c 1.6e 1.a 1.b 1.c 1.d 1.e 1.f 1.g 1.h 1.i 2.j 1.k 1.l 1.m 1.0
1.n 1.0 1.o 1.p 1.0 1.6e 1.64 1.0 9.i 1s.0 8.6e 1.u 1.v 1.w 1c.0 1.r 1.s 1.t 1.u 1.v 1.w 1.x 1.y
2.6e 2.64 5.6e 1.64 2.6e 1.64 g.0 1.z 2t.0 8.6e 1.0 4.6e 1.64 1.6e 2.0 2.6e 1.0 1.64 2.6e 1.64
z.0 1.10 u.0 1.6e 1.64 2.6e 1.64 2.6e 3.64 1.6e 2.64 1.6e 1.64 3.6e 1.64 1.6e 1.64 1.6e 1.64
1.6e 1.64 4.6e 4e.0 7.6e 1.64 1.6e 9.0 1.64 o.0 4.6e 1.0 9.6e 1.0 3.6e 1.0 7.6e 15.0 5.64 1l.0
2.6e 3.64 4.6e 16.0 5.6e 5.64 f.6e 1.64 2.6e 1.64 2.6e 1.64 3.6e 3.64 1.r 1.s 1.t 3.6e 1.64 2.6e
2.64 5.6e 1o.0 1.7 g.0 1.9 3.0 1.6e 1.64 2.6e 2v.0 1.7 g.0 1.9 1c.0 3.6e 1n.0 2.7 f.0 4.9 2z.0
1.7 g.0 3.9 30.0 1.7 g.0 8.9 3c.0 3.9 30.0 1.7 g.0 8.9 1.2c 2.2j 2s.0 1.7 g.0 8.9 2u.0 2.9 g.0
1.9 3g.0 5.9 2x.0 2.2v 5.9 9.0 4.2z 30.0 2.3a 1.9 d.0 4.3e 24.0 2.64 r.0 1.64 1.0 1.64 1.0 1.60
1j.0 1.3l 2.3m 6.3o 4.3m 2.0 2.3m 2.6e 1.9 1.0 2.6e 1q.0 1.64 34.0 1.7 1.0 2.9 2a.0 1.64 jz.0
3.6e qc.0 b.9 l.0 1.9 4d.0 1.9 a.0 3.6e 5l.0 1.6c 3z.0 1.66 1.6e 5.64 5z.0 1.6e 1.64 1z.0 1.9
k.0 a.6e 1.64 1c.0 5.6e 6.64 2.6e 1.64 1.0 2.64 2.6e 2.64 5.6e 1.64 i.6e 3.64 6.6e 1.64 4.6e
l.6i 1g.0 1.7 f.0 1.9 12.0 1.6e 1.64 7.6e 1i.0 2.9 1m.0 1.7 b.0 a.9 1n.0 4.7 45.0 3.6e 1.0 1.1
5.64 2.6e 4.64 1.6e 1.0 7.1 4.0 1.64 6.0 1.6e 3.0 2.6e 5i.0 2.6e 1.64 7.6e 1.64 2.6e 1.6i 1.5y
1.64 1.5m 11.6e 1.6g 2.6c 1.64 1.62 1.6e 1.6h 1.64 1.6e 2.64 jz.0 2.6e 2.1 4.6e 3.1 2.6e 4.0
1.6e 3.0 2.1 1.6e 1.64 1.6e 2.1 4.64 k.6e 2cr.0 4.6e 3w.0 1.9 2o.0 w.6e fe.0 1.62 1.6c 1.6g 1.66
2.68 2x.0 4.8 n9u.0 1.6e 4.0 a.6e w.0 2.6e 28.0 2.6e 7o.0 1.9 11.0 4.9 44.0 1.9 r.0 i.6e 1l.0
3.64 11.0 c.9 2c.0 1.7 c.0 1.9 6n.0 1.6e 1.0 2.6e 1.64 2.0 2.6e 5.0 2.6e 1.0 1.6e 1g.0 b.9 6k.0
3.9 fn2.0 44.q ha.0 7.6e 7.64 n.6e qg.0 3n.64 2o.0 1.64 45.0 a.6e 1al.0 1.64 1.0 1.6e 14.0 1.6e
1.1 5.64 1.9 4l.0 1.6e 5.64 ft.0 c.6e 1l.0 5.6e 8t.0 2.6e 25.0 2.64 1.0 3.64 1y.0 2.64 3.6e 1.64
1.6e 4.64 1d.0 1.6e 1.64 1.6e 1.64 5c.0 1.9 15.0 1.9 e.0 1.9 1l.0 1.9 1.7 1x.0 3.6e 1c.0 3.9
1p.0 1.7 24.0 1.9 9.0 1.7 2y.0 1.9 1.7 4y.0 1.7 6.9 23.0 2.7 g.0 3.9 m.0 q.6e 26.0 3.9 35.0 1.9
3.0 1.7 n.0 1.6e 2r.0 1.9 1.7 6z.0 1.9 1.7 3i.0 1.9 3a.0 1.9 1.7 37.0 5.9 7d.0 1.9 1.7 76.0 2.9
4.0 1.7 4c.0 1.9 2b.0 1.9 i.0 9.9 21.0 1.9 bp.0 1.9 76.0 1.7 1.0 2.9 29.0 1.9 bt.0 2.9 d0s.0 1.9
1xc.0 5.1 1n.0 7.6e xl.0 2.6 f58.0 1.1 43q.0 2.60 3.1 3.0 1.6a d.60 8.64 2.0 5.6e 2.64 u.0 4.6e
44.0 3.6e 2pn.0 74.6e 1c.0 7.6e af.0 i.6e 18.0 4.6e e4.0 2.6g 1.64 1.6e 72.0 1.6e 1.64 6r.0 1.6e
2.0 1.6e 7.0 2.6e 5.0 9.6e cy.0 2a.64 y.0 6.6e 1.7 l705.0"

/-- Marks, `m`, and all other characters, `o`. -/
def markText : String :=
  "olc m35 o7m m8 o7a m19 o1 m1 o1 m2 o1 m2 o1 m9 o1s mb o1c ml og m1 o2t m8 o1 m6 o2 m2 o1 m4 oz
m1 ou mt o2h mb o1m m9 o9 m1 oo m4 o1 m9 o1 m3 o1 m7 o15 m5 o1l m9 o16 m1m o1i m3 o1 mi o1 mf o2
m2 ot m4 o1j m1 o1 mg o9 m9 o2 m4 oo m7 o1j mw ok m2 o3 m1 ob m4 o1j m1 o1 mi oi m4 ok mb o1j m1
o1 mx o3 m4 os m1 o1n mi o7 mf oq m5 o1j m1 o1 mq oa m4 or m3 o1k m1 o1 mu o6 m4 od mh o1j m2 o1
mg o9 m1 oa m4 or m4 o1x ms oc m2 o1p m1 o2 mb o8 m8 o2q m1 o2 m9 ob m8 o20 m2 or m1 o1 m1 o1 m1
o4 m2 o1d mk o1 m2 o5 m1d o8 m1 o2s mk on m4 o4 m3 o1 m3 o2 m7 o3 m4 od mc o1 m1 oa m4 ojj m3
oqa md oj m3 ot me oi me o1i mu o9 m3 o4l m2 oy m1 o3a mw o5z m7 o1j m17 o1c m2d o1b mh o12 m9
oc m3 ou md o1k mm o14 mn o45 m3 o1 ml o4 m1 o6 m1 o2 m3 o5i m1t ojz m1g o2cr m4 o3w m1 o2o mw
ofe m6 o2x m4 on9u m4 o1 ma ow m2 o28 m2 o7k m1 o3 m1 o4 m1 on m5 o4 m4 o28 m2 o1e mq oi mi od
m1 o12 m8 op mo ox m4 o1b me o10 m1 o1v mn o3 m1 o8 m4 o17 m3 o1e m1 o1 m3 o2 m2 o5 m2 o1 m1 o15
m5 o5 mc o6a m8 o1 m4 ofn2 m44 oha m11 oqg m3n o2o m1 o45 ma o1a9 mf o14 m8 o4l m6 oft mc o1l m5
o8t m2 o25 m6 o1y mb o1d m4 o3e m3 o1h mf o15 m1 o2 m2 oa m4 o19 mb o7 me o1c m3 o10 mf of m2
o18 m1 oc m3 o1c me o8 m4 o1 m2 o2k mc o6 m1 o2 m1r o2n mh og m5 o1i m2 o1 mi o7 m6 o5 mu o1k mp
o1 m1 oe mv o1h mi on m1 o29 mk o6j mi or m10 o1c mh o2y md o2t mj o70 mf o6t mf o1 m1 o1 m2 o3x
mg o3 ms o1 ma o14 m7 o1 m4 o8 m9 o1 mb o1a mg o5i m2o o33 mh o2a m32 o1d ml o1 m9 o1m me o9n m4
o9 m2 o1 m1 o1c mf on m2e o428 m1 o6 mp o8u6 mi o1xc m5 o1n m7 ot4 m1 o1 m1u o29 me of57 m2 o3mp
m28 oet m5 o3 mm o2 m7 ou m4 o44 m3 o1iz m1j o4 m1e o8 m1 oe m1 om mv9 o74 m74 o1c m7 oaf mi o18
m4 oe4 m4 o72 m2 o6r m1 o2 m1 o7 m2 o5 m9 ocy m2a oy m7 ol705"

/-- Directions: left `l`, right `r`, Arabic `a`, Arabic number `n`, European number `e`, its
separator `s` and terminator `t`, common separator `c`, neutral `o`, boundary `b`, mark `m`, and
`x` for those that no domain with a label from right to left may hold. -/
def directionText : String :=
  "b9 x5 be x5 o2 t3 o5 s1 c1 s1 c2 ea c1 o12 lq o4 by o1 t4 oa t6 o15 lo o1 lch o2 l7 oe l2 os l1
oh m35 l4 o2 l3j o2 l3v m8 l73 o5 t2 m19 r1 m1 r1 m2 r1 m2 r1 m9 r1i o2 a1 t2 a1 c1 a1 o2 mb a1c
ml na t1 n2 a3 m1 a2t m8 o1 m6 a2 m2 o1 m4 a2 ea an m1 au mt a2h mb af r17 m9 r2 o4 r3 m1 ro m4
r1 m9 r1 m3 r1 m7 r15 m5 r2 a1j m9 a16 m1l l1j m1 l1 m1 l4 m8 l4 m1 l3 mf l2 m2 lt m1 l1m m1 l4
m6 l6 m1 lk m4 lc t2 l7 t1 l2 m5 l1l m2 l3 mr lk m2 l3 m1 lb m2 l1l m1 l4 m8 l4 m3 li m4 lb t8
l1 m8 l1m m1 l2 m1 l1 m6 l6 ma lb m4 ls m1 l1p m1 lc m3 lz o6 t1 o6 m1 l3 m1 l1j m1 l1 m3 l5 mi
la m4 li o7 l2 m1 l1m m1 lf m9 ld m4 lq m2 l1l m2 l4 m5 l7 m1 lk m4 lr m1 l20 m5 l3 m6 l2h m1 l2
mb t1 l7 m8 l2q m1 l2 m9 lb m8 l20 m2 lr m1 l1 m1 l1 m1 o4 l1f me l1 m5 l1 m2 l5 m1d l8 m1 l2u
m4 l1 m6 l1 m2 l2 m2 lp m2 l4 m3 lg m4 ld m1 l2 m2 l6 m1 lf m1 ljj m3 l1c og l2o o1 lii o5 l36
m3 lt m2 lu me li me l1j m7 l8 m1 l2 mb l7 t1 l1 m3 lg ow l39 m2 ly m1 l3a m3 l4 m2 l9 m1 l6 m7
o6 l48 oy ln m2 l2 m3 l1k m1 l1 m9 l1 m1 l2 m8 l6 md l1c m2c l1c m1 l1 m5 l1 m1 l5 m1 l14 m9 lc
m2 lw m4 l2 m2 l1 m3 l1k m1 l1 m2 l3 m1 l1 m3 l1m m8 l2 m5 l45 m3 l1 md l1 m7 l4 m1 l6 m1 l3 m2
l5i m1t lej b4 ow t5 of c1 o2j t1c m1g o16 tc ok l1o o3s s1 t1 o82 l1x oq l1 oly l1 o9f l74 omo
l51 o7 l3 m4 l6 o7 l3j m1 l2o mw oed l3 op l9 m4 l2 o1 l6 o4 l2 o4 l2g m4 l3 o1 l2i o1 l5g o1c
l5hs o1s lh3k o1s l8t o3 l2n m4 o1 ma o3 lt m2 l28 m2 le oz l2t o1 l3d m1 l3 m1 l4 m1 lp m2 l1
o4 m4 l8 t8 l1g oc l1w ma li mi ld m1 l12 m8 lp mb l1a m3 l1c m1 l2 m4 l2 m2 l13 m1 l1v m6 l2 m2
l2 mb l3 m1 l8 m1 l1b m1 l1f m1 l1 m3 l2 m2 l5 m2 l1 m1 l16 m2 l8 mb l2x o2e l11 m1 l2 m1 l4 m3
lfn2 m44 ah ogt m11 o1a ab1 l75 o1 l1q o25 l3 o1s l19 m3n l2o m1 ev l3a ma lw0 r7z o1 r69 mf r14
m8 r4l m6 r26 o7 rcg a10 mc nq rv m5 o1 r6p nw r17 m2 rl ae o16 m6 r1c am mb av ri m4 r3e l1 m1
l1i mf lb ok la m1 l2 m2 la m3 l1d m4 l2 m2 l7 me l1c m3 l10 m5 l1 m9 l1p m1 lc m2 l1g m9 la m4
l2 m1 l2n m3 l2 m1 l1 m2 l6 m1 l2 m1r l2n m1 l3 md lg m2 l1l m2 l3 m1 l11 mq l1n m7 lc m1 l1 m1
l1 m1 le mv l1k m8 l2 m3 l1 m1 ln m1 l2c m6 l1 m1 l4 m2 l1 m2 l6m m6 l4 m2 l1 m2 lr m10 l1f m8
l2 m1 l1 m2 lv ow l17 m1 l1 m1 l2 m6 l1 m1 l2t m1 l1 m1 l2 m4 l1 m9 l73 m9 l1 m2 l74 m2 l1 m1 l4
m1 l40 m8 l4 m1 lw m6 l2 m2 l14 m6 l2 m4 l8 m9 l1 m6 l2 m3 l1a md l1 m2 l5i m1 l1 m3 l1 m1 l5l
me l2c mn l1 m7 l1 m2 l1 m23 l1d ml l1 m9 l1s m3 l2 m1 l1 m1 l9n m2 lb m2 l1g m8 l2 m1 l1 m1 ln
m2e l11 o8 t4 ou l401 m1 l6 mp l8u6 mc l3 m3 l1xc m5 l1n m7 lt4 m1 l1r m4 l27 o1 l1 mc lf59 m2
l31d olc m28 lev m3 lh m8 l2 m7 lu m4 l1n o2h m3 o3f l1s o2o l1b4 m1j l4 m1e l8 m1 le m1 lm mv9
l74 m74 l1c m7 laf mi l18 m4 lf tcx ls m4 l72 m2 l6r m1 l2 m1 l7 m2 l5 m9 l76 r5s m2a ry m7 rme
ahr ogw lt o3 l1p o1l l3e o2ow ll2io"

/-- How letters join: to both sides `d`, to the right `r`, to the left `l`, not at all `u`, and `t`
for those that are seen through. -/
def joiningText : String :=
  "ulc t35 u7m t8 u7a t19 u1 t1 u1 t2 u1 t2 u1 t9 u1s tb u5 d1 u1 r4 d1 r1 d1 r1 d5 r4 dd u1 d7 r1
d2 tl ue d2 t1 r3 u5 df ri d12 r1 d2 r9 d1 r1 d1 r1 d2 r2 u1 r1 t8 u1 t6 u2 t2 u1 t4 r2 ua d3 u2
d1 ug r1 t1 d3 r5 d4 r1 d9 r1 d1 r1 d1 r1 d2 r1 tt r1 db r3 df r2 d4 r1 d1 r2 d3 r2 d6 u12 tb up
dx t9 u9 t1 uo t4 u1 t9 u1 t3 u1 t7 ug r1 d5 r2 d1 r1 da r1 d1 r3 t5 u2 d1 u1 d4 u1 r1 d1 rq u3
d1 u2 d5 r1 d8 t9 da r3 u1 r1 d2 r2 d6 r1 df u1 t1l u1j t1 u1 t1 u4 t8 u4 t1 u3 tf u2 t2 ut t1
u1m t1 u4 t6 u6 t1 uk t4 uo t5 u1l t2 u3 tr uk t2 u3 t1 ub t2 u1l t1 u4 t8 u4 t3 ui t4 uk t8 u1m
t1 u2 t1 u1 t6 u6 ta ub t4 us t1 u1p t1 uc t3 u1c t1 u3 t1 u1j t1 u1 t3 u5 ti ua t4 ur t1 u1m t1
u2 t1 u6 t1 u5 t9 ud t4 uq t2 u1l t2 u4 t5 u7 t1 uk t4 ur t1 u20 t5 u3 t6 u2h t1 u2 tb u8 t8 u2q
t1 u2 t9 ub t8 u20 t2 ur t1 u1 t1 u1 t1 u1j te u1 t5 u1 t2 u5 t1d u8 t1 u2u t4 u1 t6 u1 t2 u2 t2
up t2 u4 t3 ug t4 ud t1 u2 t2 u6 t1 uf t1 ujj t3 uqa t3 ut t2 uu te ui te u1j t7 u8 t1 u2 tb u9
t3 u13 d1 uo d2o u5 t2 dy t1 d6 u34 t3 u4 t2 u9 t1 u6 t7 u5z t2 u2 t3 u1k t1 u1 t9 u1 t1 u2 t8
u6 td u1c t2c u1c t1 u1 t5 u1 t1 u5 t1 u14 t9 uc t2 uw t4 u2 t2 u1 t3 u1k t1 u1 t2 u3 t1 u1 t3
u1m t8 u2 t5 u45 t3 u1 td u1 t7 u4 t1 u6 t1 u3 t2 u5i t1t ujz t1g u2cr t4 u3w t1 u2o tw ufe t4
u2z t4 un9u t4 u1 ta uw t2 u28 t2 u7k t1 u3 t1 u4 t1 up t2 u5 t4 ug d1e l1 u29 ta ui ti ud t1
u12 t8 up tb u1a t3 u1c t1 u2 t4 u2 t2 u13 t1 u1v t6 u2 t2 u2 tb u3 t1 u8 t1 u1b t1 u1f t1 u1 t3
u2 t2 u5 t2 u1 t1 u16 t2 u8 tb u6c t1 u2 t1 u4 t3 ufn2 t44 uha t11 uqg t3n u2o t1 u45 ta u1a9 tf
u14 t8 u3k d5 r1 u1 r1 u1 r2 u2 l1 r5 d4 l1 d5 r1 d3 r1 u2 r1 t6 d4 r1 u40 d1 r1 d1 r3 d3 r1 d2
r1 d1 r2 d1 r8 ug r4 d2 u9d l1 dx r1 d1 tc u1l t5 u8t t2 ul r1 d2 u1 da u16 t6 u1c d3 r1 dh u1
tb d3 r1 ur d4 r2 dc t4 u16 d1 u1 d2 r3 u1 d1 r2 d2 r1 d2 u1 d1 r2 d1 u4 r1 d1 ll ux t1 u1i tf
u15 t1 u2 t2 ua t3 u1d t4 u2 t2 u7 te u1c t3 u10 t5 u1 t9 u1p t1 uc t2 u1g t9 ua t4 u2 t1 u2n t3
u2 t1 u1 t2 u6 t1 u2 t1r u2n t1 u3 td ug t2 u1l t2 u3 t1 u11 tq u1n t7 uc t1 u1 t1 u1 t1 ue tv
u1k t8 u2 t3 u1 t1 un t1 u2c t6 u1 t1 u4 t2 u1 t2 u6m t6 u4 t2 u1 t2 ur t10 u1f t8 u2 t1 u1 t2
u2y t1 u1 t1 u2 t6 u1 t1 u2t t1 u1 t1 u2 t4 u1 t9 u73 t9 u1 t2 u74 t2 u1 t1 u4 t1 u40 t8 u4 t1
uw ta u14 t6 u2 t4 u8 t9 u1 t6 u2 t3 u1a td u1 t2 u5i t1 u1 t3 u1 t1 u5l te u1 t1 u2a tn u1 t7
u1 t2 u1 t23 u1d tl u1 t9 u1s t3 u2 t1 u1 t1 u9n t2 ub t2 u1g t8 u2 t1 u1 t1 un t2e u428 t1 u6
tp u8u6 tc u3 t3 u1xc t5 u1n t7 ut4 t1 u1r t4 u29 tc uf59 t2 u3mp t28 uev t3 uh t8 u2 t7 uu t4
u44 t3 u1iz t1j u4 t1e u8 t1 ue t1 um tv9 u74 t74 u1c t7 uaf ti u18 t4 ue4 t4 u72 t2 u6r t1 u2
t1 u7 t2 u5 t9 ucy t2a dy tc ul700"

/-- Pairs of characters that are written as one, and that one, with points between them. -/
def compositionText : String :=
  "2p.lc.68 2p.ld.69 2p.le.6a 2p.lf.6b 2p.lk.6c 2p.lm.6d 2r.mf.6f 2t.lc.6g 2t.ld.6h 2t.le.6i
2t.lk.6j 2x.lc.6k 2x.ld.6l 2x.le.6m 2x.lk.6n 32.lf.6p 33.lc.6q 33.ld.6r 33.le.6s 33.lf.6t
33.lk.6u 39.lc.6x 39.ld.6y 39.le.6z 39.lk.70 3d.ld.71 3d.lk.73 2p.lg.75 2p.li.77 2p.mg.79
2r.ld.7b 2r.le.7d 2r.lj.7f 2r.lo.7h 2s.lo.7j 2t.lg.7n 2t.li.7p 2t.lj.7r 2t.mg.7t 2t.lo.7v
2v.le.7x 2v.li.7z 2v.lj.81 2v.mf.83 2w.le.85 2x.lf.89 2x.lg.8b 2x.li.8d 2x.mg.8f 2y.le.8l
2z.mf.8n 30.ld.8q 30.mf.8s 30.lo.8u 32.ld.90 32.mf.92 32.lo.94 33.lg.99 33.li.9b 33.ln.9d
36.ld.9h 36.mf.9j 36.lo.9l 37.ld.9n 37.le.9p 37.mf.9r 37.lo.9t 38.mf.9v 38.lo.9x 39.lf.a1
39.lg.a3 39.li.a5 39.lm.a7 39.ln.a9 39.mg.ab 3b.le.ad 3d.le.af 3e.ld.ai 3e.lj.ak 3e.lo.am
33.m3.bl 39.m3.c0 2p.lo.cu 2x.lo.cw 33.lo.cy 39.lo.d0 70.lg.d2 70.ld.d4 70.lo.d6 70.lc.d8
6c.lg.db fb.lg.dd 6e.lg.df 2v.lo.dj 2z.lo.dl 33.mg.dn dn.lg.dp ia.lo.dr 2y.lo.ds 2v.ld.dx
32.lc.e1 6d.ld.e3 6e.ld.e5 6w.ld.e7 2p.lr.e9 2p.lt.eb 2t.lr.ed 2t.lt.ef 2x.lr.eh 2x.lt.ej
33.lr.el 33.lt.en 36.lr.ep 36.lt.er 39.lr.et 39.lt.ev 37.me.ex 38.me.ez 2w.lo.f3 2p.lj.fb
2t.mf.fd 6u.lg.ff 6t.lg.fh 33.lj.fj fj.lg.fl 3d.lg.fn qy.ld.pc q9.ld.q4 qd.ld.q5 qf.ld.q6
qh.ld.q7 qz.ld.q8 qh.lk.qy qt.lk.qz qn.ld.r0 qt.ld.r1 qx.ld.r2 u0.li.u1 tx.lc.uo tx.lk.up
tv.ld.ur uu.lk.uv u2.ld.v0 u0.lc.v1 ub.li.v2 vp.lr.vr ty.li.xu ts.li.y9 ts.lk.yb tx.li.yf
yh.lk.yj ty.lk.yl tz.lk.yn u0.lg.yr u0.lk.yt u6.lk.yv yx.lk.yz ul.lk.z1 ub.lg.z3 ub.lk.z5
ub.ln.z7 uf.lk.z9 uj.lk.zd 17r.18z.17m 17r.190.17n 18o.190.17o 17r.191.17p 18q.190.17q
1cl.190.1c0 1c1.190.1c2 1ci.190.1cj 1t4.1to.1t5 1tc.1to.1td 1tf.1to.1tg 1xj.1xa.1xn 1xj.1xz.1xo
287.28m.288 287.27y.28b 287.28n.28c 2aa.2c7.2ac 2bq.2bi.2bu 2br.2bi.2bv 2bq.2c7.2bw 2fa.2fq.2fc
2in.2j9.2io 2iu.2j9.2iv 2iu.2ja.2iw 2iu.2iq.2iy 2iy.2j9.2iz 2me.2m6.2mi 2mf.2m6.2mj 2me.2mv.2mk
2qh.2q2.2qi 2qh.2q7.2qk 2qk.2q2.2ql 2qh.2qn.2qm 36t.372.36u 5c5.5dh.5c6 5c7.5dh.5c8 5c9.5dh.5ca
5cb.5dh.5cc 5cd.5dh.5ce 5ch.5dh.5ci 5dm.5dh.5dn 5do.5dh.5dp 5dq.5dh.5ds 5dr.5dh.5dt 5du.5dh.5dv
2p.md.5xd 2q.lj.5xf 2q.mb.5xh 2q.mp.5xj 6f.ld.5xl 2s.lj.5xn 2s.mb.5xp 2s.mp.5xr 2s.mf.5xt
2s.ml.5xv 7n.lc.5xx 7n.ld.5xz 2t.ml.5y1 2t.mo.5y3 fd.li.5y5 2u.lj.5y7 2v.lg.5y9 2w.lj.5yb
2w.mb.5yd 2w.lk.5yf 2w.mf.5yh 2w.mm.5yj 2x.mo.5yl 6n.ld.5yn 2z.ld.5yp 2z.mb.5yr 2z.mp.5yt
30.mb.5yv 5yv.lg.5yx 30.mp.5yz 30.ml.5z1 31.ld.5z3 31.lj.5z5 31.mb.5z7 32.lj.5z9 32.mb.5zb
32.mp.5zd 32.ml.5zf 6t.ld.5zh 6t.lk.5zj 99.lc.5zl 99.ld.5zn 34.ld.5zp 34.lj.5zr 36.lj.5zt
36.mb.5zv 5zv.lg.5zx 36.mp.5zz 37.lj.601 37.mb.603 9n.lj.605 9t.lj.607 603.lj.609 38.lj.60b
38.mb.60d 38.mp.60f 38.ml.60h 39.mc.60j 39.mo.60l 39.ml.60n a1.ld.60p a3.lk.60r 3a.lf.60t
3a.mb.60v 3b.lc.60x 3b.ld.60z 3b.lk.611 3b.lj.613 3b.mb.615 3c.lj.617 3c.lk.619 3d.lj.61b
3e.le.61d 3e.mb.61f 3e.mp.61h 2w.mp.61i 38.lk.61j 3b.lm.61k 3d.lm.61l 2p.mb.61t 2p.ll.61v
6a.ld.61x 6a.lc.61z 6a.ll.621 6a.lf.623 61t.le.625 77.ld.627 77.lc.629 77.ll.62b 77.lf.62d
61t.li.62f 2t.mb.62h 2t.ll.62j 2t.lf.62l 6i.ld.62n 6i.lc.62p 6i.ll.62r 6i.lf.62t 62h.le.62v
2x.ll.62x 2x.mb.62z 33.mb.631 33.ll.633 6s.ld.635 6s.lc.637 6s.ll.639 6s.lf.63b 631.le.63d
bl.ld.63f bl.lc.63h bl.ll.63j bl.lf.63l bl.mb.63n 39.mb.63p 39.ll.63r c0.ld.63t c0.lc.63v
c0.ll.63x c0.lf.63z c0.mb.641 3d.lc.643 3d.mb.645 3d.ll.647 3d.lf.649 q9.lv.64g q9.lw.64h
64g.lc.64i 64h.lc.64j 64g.ld.64k 64h.ld.64l 64g.n6.64m 64h.n6.64n qd.lv.64w qd.lw.64x 64w.lc.64y
64x.lc.64z 64w.ld.650 64x.ld.651 qf.lv.65c qf.lw.65d 65c.lc.65e 65d.lc.65f 65c.ld.65g 65d.ld.65h
65c.n6.65i 65d.n6.65j qh.lv.65s qh.lw.65t 65s.lc.65u 65t.lc.65v 65s.ld.65w 65t.ld.65x 65s.n6.65y
65t.n6.65z qn.lv.668 qn.lw.669 668.lc.66a 669.lc.66b 668.ld.66c 669.ld.66d qt.lv.66o qt.lw.66p
66o.lc.66q 66p.lc.66r 66o.ld.66s 66p.ld.66t 66o.n6.66u 66p.n6.66v qx.lv.674 qx.lw.675 674.lc.676
675.lc.677 674.ld.678 675.ld.679 674.n6.67a 675.n6.67b q9.lc.67k qd.lc.67m qf.lc.67o qh.lc.67q
qn.lc.67s qt.lc.67u qx.lc.67w q9.li.69c q9.lg.69d q9.n6.69i qf.n6.69y qh.li.6a8 qh.lg.6a9
qy.lc.6aa qh.n6.6ae qy.n6.6af qt.li.6ao qt.lg.6ap qz.lc.6aq qp.lv.6as qp.lw.6at qt.n6.6au
qz.n6.6av qx.n6.6ba 6mo.mw.6my 6mq.mw.6mz 6ms.mw.6ni 6og.mw.6od 6ok.mw.6oe 6oi.mw.6of 6pv.mw.6pw
6q0.mw.6q1 6q3.mw.6q4 6qr.mw.6qs 6qt.mw.6qu 6rg.mw.6rl 6rn.mw.6ro 6rp.mw.6rr 6rs.mw.6rt
1p.mw.6sg 6sh.mw.6si 6rx.mw.6st 1o.mw.6su 1q.mw.6sv 6sk.mw.6sw 6sl.mw.6sx 6sy.mw.6t0 6sz.mw.6t1
6t2.mw.6t4 6t3.mw.6t5 6t6.mw.6tc 6t7.mw.6td 6te.mw.6tg 6tf.mw.6th 6ti.mw.6tk 6tj.mw.6tl
6ua.mw.6uk 6ug.mw.6ul 6uh.mw.6um 6uj.mw.6un 6t8.mw.6w0 6t9.mw.6w1 6tt.mw.6w2 6tu.mw.6w3
6uq.mw.6wa 6ur.mw.6wb 6us.mw.6wc 6ut.mw.6wd 9jf.9ll.9jg 9jh.9ll.9ji 9jj.9ll.9jk 9jl.9ll.9jm
9jn.9ll.9jo 9jp.9ll.9jq 9jr.9ll.9js 9jt.9ll.9ju 9jv.9ll.9jw 9jx.9ll.9jy 9jz.9ll.9k0 9k1.9ll.9k2
9k4.9ll.9k5 9k6.9ll.9k7 9k8.9ll.9k9 9kf.9ll.9kg 9kf.9lm.9kh 9ki.9ll.9kj 9ki.9lm.9kk 9kl.9ll.9km
9kl.9lm.9kn 9ko.9ll.9kp 9ko.9lm.9kq 9kr.9ll.9ks 9kr.9lm.9kt 9ja.9ll.9lg 9lp.9ll.9lq 9m3.9ll.9m4
9m5.9ll.9m6 9m7.9ll.9m8 9m9.9ll.9ma 9mb.9ll.9mc 9md.9ll.9me 9mf.9ll.9mg 9mh.9ll.9mi 9mj.9ll.9mk
9ml.9ll.9mm 9mn.9ll.9mo 9mp.9ll.9mq 9ms.9ll.9mt 9mu.9ll.9mv 9mw.9ll.9mx 9n3.9ll.9n4 9n3.9lm.9n5
9n6.9ll.9n7 9n6.9lm.9n8 9n9.9ll.9na 9n9.9lm.9nb 9nc.9ll.9nd 9nc.9lm.9ne 9nf.9ll.9ng 9nf.9lm.9nh
9ly.9ll.9o4 9nz.9ll.9o7 9o0.9ll.9o8 9o1.9ll.9o9 9o2.9ll.9oa 9od.9ll.9oe 1fpu.lj.1fpl
1fq2.lj.1fqc 1huh.1hve.1hui 1huj.1hve.1huk 1hut.1hve.1huz 1hyp.1hyf.1hym 1hyq.1hyf.1hyn
1idj.1ida.1idn 1idj.1idz.1ido 1if6.1ih5.1if7 1if8.1igr.1if9 1iff.1igy.1ifi 1ifk.1ih5.1ifl
1igy.1igy.1ih1 1igy.1igo.1ih3 1igy.1ih5.1ih4 1int.1inu.1inv 1int.1ink.1inw 1int.1inx.1iny
1iuw.1iun.1iuy 1iux.1iun.1iuz 1jjp.1jjk.1jjs 1xr2.1xr2.1xr5 1xr2.1xrd.1xr6 1xr2.1xr3.1xr7
1xrd.1xr3.1xr8 1xr2.1xr4.1xr9 1xr5.1xr3.1xra 1xr6.1xr3.1xrb 1xr5.1xr4.1xrc 206f.206f.206g
206b.206f.206h 206h.206f.206i"

end Latchkey.Idna
