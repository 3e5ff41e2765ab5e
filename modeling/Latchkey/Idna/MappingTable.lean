/-!
# The mapping of characters in domains, as a table

What UTS #46 does to each character as of Unicode 17, from U+0000 on, in runs; the Hebrew point
U+05C8 is kept as well. All numbers have the base thirty-six. `v`, `i` and `x` are followed by the
length of a run that is kept, dropped or refused; `m` by the characters that replace one character;
`s` by the length of a run that is replaced by consecutive characters, and the first of these; `t`
by the number of characters in a run of which every second is replaced by the one behind it, and the
first of these.
-/

namespace Latchkey.Idna

/-- The runs of the mapping. -/
def mappingText : String :=
  "v1t sq.2p v11 xw mw v7 mw.lk v1 m2p v2 i1 v1 mw.lg v2 s2.1e mw.ld mqk v2 mw.mf m1d m33 v1
m1d.6dg.1g m1d.6dg.1e m1f.6dg.1g v1 sn.68 v1 s7.6w vx to.75 m2x.lj v1 m2x.2y m2x.2y t2.8l v1
t3.8q m30.53 m30.53 t4.8y mjg.32 tn.97 m73 t3.ai m37 v1 mgj t2.ar mgk maw v1 s2.gm mb0 v2 md9
mgp mgr mb6 v1 mgw mgz v1 mh5 mh4 mbd v3 mhb mhe v1 mhh t3.bl mhs mbs v1 mhv v2 mbx v1 mi0 mc0
v1 s2.i2 t2.c4 mia mc9 v3 mcd v7 m2s.am m2s.am m2s.am m30.2y m30.2y m30.2y m32.2y m32.2y m32.2y
t8.cu v1 t9.db v1 m2s.3e m2s.3e m2s.3e mdx v1 mb9 mcf tk.e1 mbi v1 t9.f7 v6 m8rp mfw v1 mbe m8rq
v2 mg2 v1 mao mi1 mi4 t5.g7 v2o m2w mh2 m2y m36 mhl mhn mht m3b m3d vv mw.li mw.lj mw.lm mw.mg
mw.lf mw.ln v2 mgz m30 m37 m3c mid v2j s2.lc v1 mlv mlk.ld mqh v9 i1 vw t2.oh mjd v1 mon v1 x2
mw.qh v3 m1n ms3 x4 mw.ld mw.lk.ld mq4 m53 s3.q5 x1 mr0 x1 s2.r1 v1 sh.q9 x1 s9.qr vz mrb mqa
mqg mqt mr1 mqz mqu mqo v1 tc.rd mqi mqp mqr v1 mqg mqd v1 ms8 v1 mqr msb v2 s3.or sg.uo sw.ts
v1c th.v5 v8 tr.wb my7 t7.xu v1 t1c.y9 x1 s12.129 x2 v1a m12d.136 v3 x2 v3 x1 v1k x7 vr x4 v6 xh
vm x1 v2g m17r.19w m18o.19w m1c7.19w m18q.19w v2s x1 v1c x2 v1n x2 v2t xe v1n x2 v1d x2 vf x1 vs
x2 v1 x1 vb x5 vw x7 v23 x1 v39 m1sl.1to m1sm.1to m1sn.1to m1ss.1to m1sx.1to m1sy.1to m1t7.1to
m1tb.1to v10 x1 v8 x2 v2 x2 vm x1 v7 x1 v1 x3 v4 x2 v9 x2 v2 x2 v4 x8 v1 x4 m1wh.1x8 m1wi.1x8 x1
m1wv.1x8 v4 x2 vp x2 v3 x1 v6 x4 v2 x2 vm x1 v7 x1 v1 m20i.20s x1 v1 m20o.20s x1 v2 x2 v1 x1 v5
x4 v2 x2 v3 x3 v1 x7 m1zq.20s m1zr.20s m1zw.20s v1 x1 m20b.20s x7 vh xa v3 x1 v9 x1 v3 x1 vm x1
v7 x1 v2 x1 v5 x2 va x1 v3 x1 v3 x2 v1 xf v4 x2 vc x7 v7 x1 v3 x1 v8 x2 v2 x2 vm x1 v7 x1 v2 x1
v5 x2 v9 x2 v2 x2 v3 x7 v3 x4 m275.27w m276.27w x1 v5 x2 vi xa v2 x1 v6 x3 v3 x1 v4 x3 v2 x1 v1
x1 v2 x3 v2 x3 v3 x3 vc x4 v5 x3 v3 x1 v4 x2 v1 x6 v1 xe vl x5 vd x1 v3 x1 vn x1 vg x2 v9 x1 v3
x1 v4 x7 v2 x1 v3 x1 v2 x2 v4 x2 va x7 vm x1 v3 x1 vn x1 va x1 v5 x2 v9 x1 v3 x1 v4 x7 v2 x5 v3
x1 v4 x2 va x1 v3 xc vd x1 v3 x1 v1f x1 v3 x1 v6 x4 vg x2 vq x1 v3 x1 vi x3 vo x1 v9 x1 v1 x2 v7
x3 v1 x4 v6 x1 v1 x1 v8 x6 va x2 v3 xc v1e m2tp.2sy v7 x4 vt x11 v2 x1 v1 x1 v5 x1 vo x1 v1 x1
vc m2x9.2wi va x2 v5 x1 v1 x1 v7 x1 va x2 m2wb.2vt m2wb.2w1 v2 xw vc m2yz v1i m30i.33r v4 x1 v4
m30s.33r v4 m30x.33r v4 m312.33r v4 m317.33r vc m30g.33p v3 x4 v2 m31t.31u v1 m31t.31w m33m.328
m33m.31t.328 m33n.328 m33n.31t.328 v7 m31t.328 vh m32q.33r v4 x1 v4 m330.33r v4 m335.33r v4
m33a.33r v4 m33f.33r vc m32o.33p v3 x1 vf x1 vd x11 v4g s12.8w0 x1 m8x3 x5 m8x9 x2 v18 m3bw v2q
i2 v6g x1 v4 x2 v7 x1 v1 x1 v4 x2 v15 x1 v4 x2 vx x1 v4 x2 v7 x1 v1 x1 v4 x2 vf x1 v1l x1 v4 x2
v1v x2 vw x3 vq x6 v2e x2 s6.3xs x2 vhs x1 vs x3 v2h x7 vm x9 vo x9 vk xc vd x1 v3 x1 v2 xc v1g
i2 v14 x2 va x6 va x6 vb i5 va x6 v2h x7 v17 x5 v1y xa vv x1 vc x4 vc x4 v1 x3 v16 x2 v5 xb v18
x4 vq x6 vb x3 v1q x2 v1t x1 vt x2 vb x6 va x6 ve x2 v1a x2 vc xk v25 x1 v4m x8 v1o x3 vf x3 v1f
mtu mtw mu6 s2.u9 mua mui mv7 mwuj m5my v1 x5 s17.3bk x2 s3.3ct v8 x8 v17 x5 v18 m2p m6e m2q v1
s2.2s md9 s8.2v v1 m33 mf7 m34 m36 s2.38 m3b m2p s2.gg m5qa m2q s2.2s mgp s2.gr m2v v1 m2z m31
m97 m33 mgk s2.5qu m34 s2.38 m5r1 mhb m3a m5r9 s3.qa s2.qu m2x m36 s2.39 s2.qa mqp s2.qu vd mu5
vy mgi m2r mgl m6o mgs m2u mgv mgx mh1 s3.h4 m5tn mil mh9 m5tx min mhd mhc s4.he mhk s2.hu mbv
s2.i1 m5r0 s2.i3 m3e s3.i8 mqg v1s t23.5xd v4 m2p.ji m601 v2 m67 v1 t1c.61t v8 s8.64g v6 x2
s6.64w x2 v8 s8.65c v8 s8.65s v6 x2 s6.668 x2 v8 x1 m66p x1 m66r x1 m66t x1 m66v v8 s8.674 v1
mq4 v1 mq5 v1 mq6 v1 mq7 v1 mr0 v1 mr1 v1 mr2 x2 m64g.qh m64h.qh m64i.qh m64j.qh m64k.qh m64l.qh
m64m.qh m64n.qh m64g.qh m64h.qh m64i.qh m64j.qh m64k.qh m64l.qh m64m.qh m64n.qh m65c.qh m65d.qh
m65e.qh m65f.qh m65g.qh m65h.qh m65i.qh m65j.qh m65c.qh m65d.qh m65e.qh m65f.qh m65g.qh m65h.qh
m65i.qh m65j.qh m674.qh m675.qh m676.qh m677.qh m678.qh m679.qh m67a.qh m67b.qh m674.qh m675.qh
m676.qh m677.qh m678.qh m679.qh m67a.qh m67b.qh v2 m67k.qh mq9.qh mq4.qh x1 v1 m69i.qh s2.69c
m67k mq4 mq9.qh mw.lv mqh mw.lv mw.n6 mw.lk.n6 m67o.qh mqf.qh mq6.qh x1 v1 m69y.qh m67m mq5 m67o
mq6 mqf.qh mw.lv.lc mw.lv.ld mw.lv.n6 v3 mpc x2 v2 s2.6a8 m67q mq7 x1 mw.lw.lc mw.lw.ld mw.lw.n6
v3 mq8 v4 s2.6ao m67u mr1 m6at mw.lk.lc mw.lk.ld m2o x2 m67w.qh mqx.qh mr2.qh x1 v1 m6ba.qh m67s
mr0 m67w mr2 mqx.qh mw.ld mw.lw x1 mw mw mw mw mw mw mw mw mw mw mw i1 v2 x2 v1 m6c0 v5 mw.mr vc
x3 v1 x7 mw v3 m6cy.6cy m6cy.6cy.6cy v1 m6d1.6d1 m6d1.6d1.6d1 v4 mx.x v1 mw.lh v8 m1r.1r m1r.x
mx.1r vd m6cy.6cy.6cy.6cy v7 mw i5 x5 i6 m1c m2x x2 s6.1g m17 m6qa m1p s2.14 m32 sa.1c m17 m6qa
m1p s2.14 x1 m2p m2t m33 m3c mgp m2w s4.2z m34 s2.37 x3 v8 m36.37 vp xe vx xf m2p.1b.2r
m2p.1b.37 m2r m4w.2r v1 m2r.1b.33 m2r.1b.39 mgr v1 m4w.2u s2.2v m2w m2w m2w m87 m2x m2x m30 m30
v1 m32 m32.33 v2 s3.34 m36 m36 v2 m37.31 m38.2t.30 m38.31 v1 m3e v1 mqx v1 m3e v1 m2z m6d s2.2q
v1 m2t s2.2t m6ku m31 m33 s4.15c m2x v1 m2u.2p.3c mqo mqb mqb mqo m6q9 v4 m2s s2.2s s2.2x v6
m1d.6dg.1j m1d.6dg.1l m1d.6dg.1d.1c m1d.6dg.1f m1e.6dg.1f m1d.6dg.1h m1e.6dg.1h m1f.6dg.1h
m1g.6dg.1h m1d.6dg.1i m1h.6dg.1i m1d.6dg.1k m1f.6dg.1k m1h.6dg.1k m1j.6dg.1k m1d.6dg m2x m2x.2x
m2x.2x.2x m2x.3a m3a m3a.2x m3a.2x.2x m3a.2x.2x.2x m2x.3c m3c m3c.2x m3c.2x.2x m30 s2.2r m31 m2x
m2x.2x m2x.2x.2x m2x.3a m3a m3a.2x m3a.2x.2x m3a.2x.2x.2x m2x.3c m3c m3c.2x m3c.2x.2x m30 s2.2r
m31 v3 m6mc v5 m1c.6dg.1f v2 x4 v4c m6qz.6qz m6qz.6qz.6qz v1 m6r2.6r2 m6r2.6r2.6r2 v6w s2.9hk
v73 xm vb xl s9.1d m1d.1c m1d.1d m1d.1e m1d.1f m1d.1g m1d.1h m1d.1i m1d.1j m1d.1k m1d.1l m1e.1c
m14.1d.15 m14.1e.15 m14.1f.15 m14.1g.15 m14.1h.15 m14.1i.15 m14.1j.15 m14.1k.15 m14.1l.15
m14.1d.1c.15 m14.1d.1d.15 m14.1d.1e.15 m14.1d.1f.15 m14.1d.1g.15 m14.1d.1h.15 m14.1d.1i.15
m14.1d.1j.15 m14.1d.1k.15 m14.1d.1l.15 m14.1e.1c.15 xk m14.2p.15 m14.2q.15 m14.2r.15 m14.2s.15
m14.2t.15 m14.2u.15 m14.2v.15 m14.2w.15 m14.2x.15 m14.2y.15 m14.2z.15 m14.30.15 m14.31.15
m14.32.15 m14.33.15 m14.34.15 m14.35.15 m14.36.15 m14.37.15 m14.38.15 m14.39.15 m14.3a.15
m14.3b.15 m14.3c.15 m14.3d.15 m14.3e.15 sq.2p sq.2p m1c v10h m6qz.6qz.6qz.6qz v2v m1m.1m.1p
m1p.1p m1p.1p.1p v2t m8gt.mw v47 x2 v3u s1c.8q8 v1c m8rl v1 mh7 m5tp mhp v2 t3.8rs mgh mhd mgg
mgi v1 m8s3 v2 m8s6 v6 m2y m3a s2.fz t1e.8sh v7 t2.8vg v3 m8vn v1 x5 v19 x1 v1 x5 v1 x2 v1k x7
m8yp v1 xe vo x9 v7 x1 v7 x1 v7 x1 v7 x1 v7 x1 v7 x1 v7 x1 v7 x1 v3i xy vq x1 v4 mlal v2b mvj3
xc mfeo mffs mfg6 mfgf mfh5 mfid mfik mfj4 mfju mg1r mg2t mg2z mg3m mg46 mg4r mg68 mg6t mg74
mgbf mge1 mget mgey mgfs mgg1 mggs mgh5 mghu mgja mgjs mgkj mh5j mh7j mhkb mhky mhl6 mhlh mhlz
mho3 mi1c mi2o mi60 mi6n mi76 mi7s mi9a mi9d mijf mijp mik1 mike minm minu minz mir8 miri mirv
mis3 mits miu9 miur miwz mjd4 mjee mjez mjzj mjzo mk1z mk2f mk2s mk3d mk4g mk4l mkc0 mkco mkdk
ml5s ml7m ml89 ml9v mlaj mlas mlaz mlcf mlck mldg mm7f mmju mmk6 mmkb mmkf mmkn mml5 mml7 mmng
mmtg mmtl mn30 mn3a mn4o mn4v mn54 mn5c mn7v mn82 mnee mnel mnfy mngf mnhq mnob mnoi mnoz mny2
mo1k mo1q mo6s mo97 moah mokz mooo mp4m mp5d mp6y mp8d mpa9 mpak mpaq mpbn mpdr mpe1 mpnn mpnu
mpo3 mpoc mpos mpp7 mppb mpri mprm mprs mqj1 mqjv mqww mqx8 mqxv mr5q mr63 mr82 mr9c mrp3 mrpi
mrpx mrqw mrrx mrxg mrxs mrzn ms6j ms7e msd7 msds msdx msk1 msp5 mssm msss mssx mtiv mtj4 mtng
mtrq mtrt mtt4 mtw1 mtwe mtwi mtwp mtzf mu0d mu0j mu0x mu5k mu6z mu73 muc6 muc9 mucs mujs mul4
mulb mun9 munj munm munw muoq muzp mvat mvb3 mvc5 mvcr mvcz mvd9 mvdd mveh mvel mvf2 mvf7 mvfk
mvgb mvgq mvgy mvil mvj0 mvj4 x16 mw v1 m1a v1f m9hu v1 mgg1 s2.gg4 v5 x1 v2e x2 v2 mw.9ll
mw.9lm v2 m9l4.9l6 v2n m9mb.9mw x5 v17 x1 s2.3cw m3hm m3cy s2.3ho s3.3cz s6.3hs m3dm s3.3d2 m3dt
sa.3d5 sl.3fl i1 s2.3dg s2.3if m3ik m3im m3ir m3iv m3ix m3do m3j1 m3j3 s2.3dp m3ds s2.3du m3dz
m3e1 s5.3e3 m3ea m3ee m3eo m3ev m3f0 s2.3jl s3.3fb s2.3gk m3go s2.3gx m3h0 m3ha m3hd x1 v2 mfeo
mfik mfex mh5n mfey mffx mfez mn5e mfh5 mffd mfep mhm1 mh80 mfju v1y xa vg m14.3cw.15 m14.3cy.15
m14.3cz.15 m14.3d1.15 m14.3d2.15 m14.3d3.15 m14.3d5.15 m14.3d7.15 m14.3d8.15 m14.3da.15
m14.3db.15 m14.3dc.15 m14.3dd.15 m14.3de.15 m14.xz4.15 m14.yvs.15 m14.zc4.15 m14.108s.15
m14.10p4.15 m14.115g.15 m14.1224.15 m14.12ys.15 m14.13f4.15 m14.14bs.15 m14.14s4.15 m14.158g.15
m14.15os.15 m14.1654.15 m14.13p8.15 m14.1350.13ic.15 m14.1350.16f8.15 x1 m14.feo.15 m14.fik.15
m14.fex.15 m14.h5n.15 m14.fis.15 m14.g31.15 m14.fer.15 m14.g2z.15 m14.fh9.15 m14.gg1.15
m14.kco.15 m14.m7f.15 m14.ldg.15 m14.kdk.15 m14.ssx.15 m14.h7j.15 m14.k4l.15 m14.kkq.15
m14.kcp.15 m14.ny6.15 m14.glp.15 m14.mm1.15 m14.rs1.15 m14.nz1.15 m14.gc4.15 m14.fkz.15
m14.gos.15 m14.i1y.15 m14.nhf.15 m14.flt.15 m14.rt3.15 m14.ggk.15 m14.nzh.15 m14.fm9.15
m14.pnu.15 m14.po3.15 mgun minw mk1z moen v8 m34.38.2t m1e.1d m1e.1e m1e.1f m1e.1g m1e.1h m1e.1i
m1e.1j m1e.1k m1e.1l m1f.1c m1f.1d m1f.1e m1f.1f m1f.1g m1f.1h m3cw s2.3cy s3.3d1 m3d5 s2.3d7
s5.3da mxz4 myvs mzc4 m108s m10p4 m115g m1224 m12ys m13f4 m14bs m14s4 m158g m15os m1654
m14c8.y5c m13p8.13dk m138w v1 mfeo mfik mfex mh5n mfis mg31 mfer mg2z mfh9 mgg1 mkco mm7f mldg
mkdk mssx mh7j mk4l mkkq mkcp mny6 mglp mmm1 mrs1 mnz1 mgc4 mo2g mn5j mho3 msix mg16 mghc mlig
mu11 mfm9 mg49 ml7n mfey mffx mfez mijq mgkz mgfv mi3b mi1y mnhf mflt mrt3 mggk mhlo m1f.1i
m1f.1j m1f.1k m1f.1l m1g.1c m1g.1d m1g.1e m1g.1f m1g.1g m1g.1h m1g.1i m1g.1j m1g.1k m1g.1l
m1h.1c m1d.kco m1e.kco m1f.kco m1g.kco m1h.kco m1i.kco m1j.kco m1k.kco m1l.kco m1d.1c.kco
m1d.1d.kco m1d.1e.kco m2w.2v m2t.36.2v m2t.3a m30.38.2s m9lu m9lw m9ly m9m0 s2.9m2 m9m5 m9m7
m9m9 m9mb m9md m9mf m9mh m9mj m9ml m9mn m9mp m9ms m9mu m9mw s6.9my m9n6 m9n9 m9nc m9nf s5.9ni
m9no m9nq s6.9ns s4.9nz mfl0.gp8 m9lu.9n5.9oc.9mw m9lu.9nv.9n9.9lt m9lu.9o3.9ne.9lu m9lu.9oc.9nv
m9lw.9mz.9o3.9m8 m9lw.9o3.9mp m9ly.9m1.9o3 m9m0.9mh.9m7.9oc.9mx m9m0.9oc.9m3.9oc m9m2.9o3.9mh
m9m2.9oc.9nk m9m3.9lw.9nu m9m3.9nt.9mr.9mw m9m3.9nx.9nu.9oc m9m4.9nx.9o3 m9m4.9o3.9ni m9m6.9m4
m9m6.9mz.9oc m9m5.9np.9nu.9oc m9m6.9nv.9mo.9oc m9m5.9nx m9m5.9nx.9m8.9nt.9nk
m9m5.9nx.9nl.9oc.9mw.9nv m9m5.9nx.9nz.9mr.9mw m9m8.9nt.9nk m9m8.9nt.9nk.9mw.9o3
m9m7.9nv.9mk.9lw.9nx m9m7.9nx.9oc.9n1 m9m9.9oc.9mh m9mb.9nv.9my m9mb.9oc.9nh m9md.9lw.9m7.9nv
m9md.9o3.9mp.9oc.9nk m9mf.9nu.9o3.9m8 m9mj.9o3.9mp m9mj.9o3.9mw m9mo.9oc.9mh m9mv.9mf m9mx.9nv
m9mw.9o3 m9my.9n2 m9n2.9mr.9mw m9n3.9lw.9ms m9n5.9oc.9mj.9o3.9mw m9n5.9oc.9ms m9n4.9oc.9nw.9nv
m9n8.9lu.9mh.9mw.9nv m9n8.9m7.9nv m9n8.9mb m9n7.9nv m9n9.9lt.9nt.9mr.9mx m9n9.9lv.9oc.9mw
m9na.9mr.9mf.9lz.9nv m9n9.9nt.9o3 m9nc.9m7.9mn.9oc.9nv m9ne.9ml m9ne.9mz.9n6 m9nc.9nv.9ms
m9ne.9o3.9mh m9ne.9oc.9mg m9nd.9oc.9mn m9nh.9lw.9o3.9mw m9ng.9nv.9mw m9nf.9o3 m9nh.9o3.9mx
m9nf.9oc.9nv m9nf.9oc.9o3 m9ni.9lw.9m7.9nx m9ni.9lw.9nv m9ni.9mr.9n3 m9ni.9nv.9m7
m9ni.9o3.9mf.9nr.9o3 m9nj.9m7.9nx.9o3 m9nj.9nu m9nj.9nu.9n4.9oc.9nv m9nl.9m4 m9nl.9m4.9mw.9o3
m9nl.9oc.9mw.9nv m9no.9oc.9mx m9no.9oc.9nv m9nq.9lu.9o3 m9nu.9mr.9mw.9nv m9nu.9nt m9nv.9n8.9oc
m9nv.9oc.9na.9nv m9nw.9nk m9nw.9o3.9mw.9ma.9o3 m9nz.9mr.9mw m1c.m9l m1d.m9l m1e.m9l m1f.m9l
m1g.m9l m1h.m9l m1i.m9l m1j.m9l m1k.m9l m1l.m9l m1d.1c.m9l m1d.1d.m9l m1d.1e.m9l m1d.1f.m9l
m1d.1g.m9l m1d.1h.m9l m1d.1i.m9l m1d.1j.m9l m1d.1k.m9l m1d.1l.m9l m1e.1c.m9l m1e.1d.m9l
m1e.1e.m9l m1e.1f.m9l m1e.1g.m9l m2w.34.2p m2s.2p m2p.39 m2q.2p.36 m33.3a m34.2r m2s.31
m2s.31.1e m2s.31.1f m2x.39 minn.jdc mk6l.gp8 mhlz.l7n mk5q.lh7 mkkq.irz.fmi.ny6 m34.2p m32.2p
mqk.2p m31.2p m2z.2p m2z.2q m31.2q m2v.2q m2r.2p.30 m2z.2r.2p.30 m34.2u m32.2u mqk.2u mqk.2v
m31.2v m2z.2v m2w.3e m2z.2w.3e m31.2w.3e m2v.2w.3e m38.2w.3e mqk.30 m31.30 m2s.30 m2z.30 m2u.31
m32.31 mqk.31 m31.31 m2r.31 m2z.31 m31.31.1e m2r.31.1e m31.1e m2z.31.1e m31.31.1f m2r.31.1f
m31.1f m2z.31.1f m31.6qd.37 m31.6qd.37.1e m34.2p m2z.34.2p m31.34.2p m2v.34.2p m36.2p.2s
m36.2p.2s.6qd.37 m36.2p.2s.6qd.37.1e m34.37 m32.37 mqk.37 m31.37 m34.3a m32.3a mqk.3a m31.3a
m2z.3a m31.3a m34.3b m32.3b mqk.3b m31.3b m2z.3b m31.3b m2z.qx m31.qx x1 m2q.35 m2r.2r m2r.2s
m2r.6qd.2z.2v x1 m2s.2q m2v.3d m2w.2p m2w.34 m2x.32 m2z.2z m2z.31 m2z.38 m30.31 m30.32 m30.33.2v
m30.3c m31.2q m31.2x.30 m31.33.30 m34.2w x1 m34.34.31 m34.36 m37.36 m37.3a m3b.2q m3a.6qd.31
m2p.6qd.31 m1d.k4l m1e.k4l m1f.k4l m1g.k4l m1h.k4l m1i.k4l m1j.k4l m1k.k4l m1l.k4l m1d.1c.k4l
m1d.1d.k4l m1d.1e.k4l m1d.1f.k4l m1d.1g.k4l m1d.1h.k4l m1d.1i.k4l m1d.1j.k4l m1d.1k.k4l
m1d.1l.k4l m1e.1c.k4l m1e.1d.k4l m1e.1e.k4l m1e.1f.k4l m1e.1g.k4l m1e.1h.k4l m1e.1i.k4l
m1e.1j.k4l m1e.1k.k4l m1e.1l.k4l m1f.1c.k4l m1f.1d.k4l m2v.2p.30 vm8d x3 v1j x9 v9o xk tn.wu9 vi
te.ww1 mui muk v2i x8 vy t7.x0j v2 tv.x0z mx2n v8 t2.x2y m5tl t5.x33 v3 mx3g v1 mh1 v2 t2.x3l v2
ta.x3r mh2 mgs mgx mh8 mh6 v1 mim mhz mil mxub t8.x4l mx3o mhu m5u6 t2.x54 mh0 t8.x59 mbf xk m37
m2r m2u m35 mx6e v2 m87 m9f v1f x3 va x6 v1k x8 v1y x8 vc x6 v38 xb vu x3 v26 x1 vb x4 vx x1 v1j
x9 ve x2 va x2 v2v xo vs xa v6 x2 v6 x2 v6 x9 v7 x1 v7 x1 v18 mx0n mxtj mh7 mxua v9 mi5 v2 x4
s28.3vk v1a x2 va x6 v8mc xc vn x4 v1d x6is mrpk mkc4 ms7e mrt4 mlw1 mfg2 mgkl mvj0 mvj0 mhn5
mssx mgw7 mhmw mjcm mne1 mp6t mqin mqt6 mr20 msjz mkxu mljv mmah mmvy mq4d msq2 muep mfia mghh
ml50 mmjf mqi5 mv8e mifk mm3v mqfh mr50 mjih mpnc mqvz miq2 mkd3 mlm2 mmpo mslq mfpi mg53 mgda
mjwk ml3n mmj4 mnhj mpa9 mqh2 mqjg ms1b mtv6 mupb mv7e mnt8 mnzz motc mq15 mt1g mvb3 mrfa mhjz
miro mokg mpdq mmle mnuy mrsy mttj mhjs mi8y mkyb mlp6 mlxr moq7 moxj mtor mgcy mpe3 mg64 mg5o
mo4c mou6 mq29 mtpx mrk0 mjin mkxu mrge mfg9 mi5j miz6 mmtj mn74 mgev mnwb mfr3 miw9 mff1 mlho
mk1k mopu mgjn mhge mni9 mq4p mre2 mla2 msds mlfs mjjy mput mjog mn6t mfji mg2x mg5l mkn5 moo7
mprj mrf6 mssv mgdx mgn6 mho3 mir0 mk3p mm4e mnxm mtkd mui2 mvbr mvda mgbf mkau ml87 msbm mino
mj9s mjcw mjve mlyb mmdl mn0p mo22 movo mpdb ms9y mq9a msgz mt3e mg7r mgbn mgql mma0 mr0i mre2
miq1 miyd mjnf ml9q moji mmt1 mfl0 mh6h mi5j miii mizg mmuq mmzt mp7e mpc6 msvo mtti mtvs mu1k
mfpn mo1a mss4 mtrs mj4x mfie mfyy mi5q mi7z mk2h mkxu mmha mncy mq9o msjg mvil mk94 mtny mgax
mkfv mkj7 mlkx mluk mmx5 mn6h mnsb mopc mu3i mg31 mje6 mtq0 mfu3 mie1 mlpm msa2 mivf mj7o mkk7
mmtj mtqe mg89 mglr mi91 mk5v mkem mko8 mlid mmx2 mnaa mp6h mr0v mr1d msss mtsy mgfz mlve mgm5
mmhc mn14 mqgq mtr7 muvr mvbz mkgn mlor mpns mo97 mobk molu mmo0 mm8p mriw mfk0 mpx2 mg8q mg7b
mip2 mjir monq mi2t mljy mkac msaj mqx8 mtot mr63 miqb mg1s mgxs v2 mhga v1 mk8k v2 mg66 mmqy
mngq mny4 mnz2 mnz9 mo0f mtw6 mon2 mp8d v1 mqhe v1 mrg8 v2 mshk msn1 v3 mu7j mu7w mu94 mv5g msm6
mtrr mfqm mfzb mg25 mgcp mgdg mggh mgwt mgzq mh2g mhfk mhig mi90 mi9a mj2s mj8o mj9q mjci mk0f
mk4i mk9d mkn9 mlmf mlqy mlya mmem mmjv mmxu mntd mny6 mnyh mnyg mnyo mnyu mnz1 s2.o0d mo5c mo75
mog0 movo mow9 moxt mp6a mpad mpnx mprt mprt mq53 mr2o mr6e mrgh mri1 mrtf mruw msdy mshk mtsz
mu0v mu2j mj1x m36cu mpp4 x2 mffq mg51 mg2w mfpc mg1x mg3k mgcn mge2 mgwt mgut mgwp mgyq mhga
mhir mhms mhn8 mhuq mi08 miqa miqh miuh miwd mj4o mj7y mj60 mj9q mj8g mjci mjec mjpg mjrw mjte
mk0m mk8k mkd3 mkd7 mkeu ml89 mla2 mlkx mlwb mlvv mlya mm5a mmem mnmv mmk5 mmnj mmqy mn01 mn46
mn5n mnbx mnbz mngq mnh7 mnhw mnka mnk0 mnv0 mo8h mog0 mol7 morf movo mp4u mpad mpxu mq27 mqrd
mr41 mr5y mr6e mren mrg8 mrez mrgh mrge mrfx mri1 mrka mruw msag msj6 msrd msxi mtq4 mtsz mtw6
mtzv mu0v mu17 mu2j mumq mvj0 m313e m3138 m33dh mbrx mcns mcop m39e1 m3bgw m3i6r mvgj mvim x12
m2u.2u m2u.2x m2u.30 m2u.2u.2x m2u.2u.30 m37.38 m37.38 xc m12s.12u m12s.12d m12s.12j m132.12u
m12s.12l x5 m15l.14k v1 m16a.14n m15u m15c s2.15f s3.15n m160 m162 m17 m161.14x m161.14y
m161.14s.14x m161.14s.14y m15c.14n m15c.14o m15c.14s m15d.14s m15e.14s m15f.14s m15g.14s
m15h.14s m15i.14s x1 m15k.14s m15l.14s m15m.14s m15n.14s m15o.14s x1 m15q.14s x1 m15s.14s
m15t.14s x1 m15v.14s m15w.14s x1 m15y.14s m15z.14s m160.14s m161.14s m162.14s m15h.14p m15d.14v
m15n.14v m15w.14v m15c.15o m19t m19t m1a3 m1a3 m1a3 m1a3 m1a6 m1a6 m1a6 m1a6 m1a8 m1a8 m1a8 m1a8
m1a2 m1a2 m1a2 m1a2 m1a7 m1a7 m1a7 m1a7 m1a1 m1a1 m1a1 m1a1 m1b8 m1b8 m1b8 m1b8 m1ba m1ba m1ba
m1ba m1ac m1ac m1ac m1ac m1ab m1ab m1ab m1ab m1ae m1ae m1ae s2.1ae m1af m1af m1af m1al m1al m1ak
m1ak m1am m1am m1ag m1ag m1aw m1aw m1ap m1ap m1bd m1bd m1bd m1bd m1bj m1bj m1bj m1bj m1bn m1bn
m1bn m1bn m1bl m1bl m1bl m1bl m1bu s2.1bu m1bv m1bv m1bv m1c0 s2.1c0 m1c1 m1c1 m1c1 m1by m1by
m1by m1by m1ci s2.1ci m1cj vx m1bh m1bh m1bh m1bh m1c7 m1c7 m1c6 m1c6 m1c8 m1c8 m1c7.19w m1cb
m1cb m1c5 m1c5 m1c9 m1c9 m1cg m1cg m1cg m1cg m18p m18p m17q.17r m17q.17r m17q.1cl m17q.1cl
m17q.18o m17q.18o m17q.1c7 m17q.1c7 m17q.1c6 m17q.1c6 m17q.1c8 m17q.1c8 m17q.1cg m17q.1cg
m17q.1cg m17q.18p m17q.18p m17q.18p m1cc m1cc m1cc m1cc m17q.17w m17q.17x m17q.18l m17q.18p
m17q.18q m17s.17w m17s.17x m17s.17y m17s.18l m17s.18p m17s.18q m17u.17w m17u.17x m17u.17y
m17u.18l m17u.18p m17u.18q m17v.17w m17v.18l m17v.18p m17v.18q m17w.17x m17w.18l m17x.17w
m17x.18l m17y.17w m17y.17x m17y.18l m183.17w m183.17x m183.17y m183.18l m185.17x m185.18l
m186.17w m186.17x m186.17y m186.18l m187.17x m187.18l m188.18l m189.17w m189.18l m18a.17w
m18a.18l m18h.17w m18h.17x m18h.17y m18h.18l m18h.18p m18h.18q m18i.17x m18i.18l m18i.18p
m18i.18q m18j.17r m18j.17w m18j.17x m18j.17y m18j.18k m18j.18l m18j.18p m18j.18q m18k.17w
m18k.17x m18k.17y m18k.18l m18k.18p m18k.18q m18l.17w m18l.17x m18l.17y m18l.18l m18l.18p
m18l.18q m18m.17w m18m.17x m18m.17y m18m.18l m18m.18p m18m.18q m18n.17w m18n.18l m18n.18p
m18n.18q m18q.17w m18q.17x m18q.17y m18q.18l m18q.18p m18q.18q m180.19s m181.19s m18p.19s
mw.18s.18x mw.18t.18x mw.18u.18x mw.18v.18x mw.18w.18x mw.18x.19s m17q.181 m17q.182 m17q.18l
m17q.18m m17q.18p m17q.18q m17s.181 m17s.182 m17s.18l m17s.18m m17s.18p m17s.18q m17u.181
m17u.182 m17u.18l m17u.18m m17u.18p m17u.18q m17v.181 m17v.182 m17v.18l m17v.18m m17v.18p
m17v.18q m18h.18p m18h.18q m18i.18p m18i.18q m18j.17r m18j.18k m18j.18l m18j.18p m18j.18q
m18k.18l m18k.18p m18k.18q m18l.17r m18l.18l m18m.181 m18m.182 m18m.18l m18m.18m m18m.18p
m18m.18q m18p.19s m18q.181 m18q.182 m18q.18l m18q.18m m18q.18p m18q.18q m17q.17w m17q.17x
m17q.17y m17q.18l m17q.18n m17s.17w m17s.17x m17s.17y m17s.18l m17s.18n m17u.17w m17u.17x
m17u.17y m17u.18l m17u.18n m17v.18l m17w.17x m17w.18l m17x.17w m17x.18l m17y.17w m17y.18l
m183.17w m183.17x m183.17y m183.18l m185.17x m185.17y m185.18l m186.17w m186.17x m186.17y
m186.18l m187.17x m188.18l m189.17w m189.18l m18a.17w m18a.18l m18h.17w m18h.17x m18h.17y
m18h.18l m18i.17x m18i.18l m18j.17w m18j.17x m18j.17y m18j.18k m18j.18l m18k.17w m18k.17x
m18k.17y m18k.18l m18k.18n m18l.17w m18l.17x m18l.17y m18l.18l m18m.17w m18m.17x m18m.17y
m18m.18l m18m.18n m18n.17w m18n.18l m18n.19s m18q.17w m18q.17x m18q.17y m18q.18l m18q.18n
m17q.18l m17q.18n m17s.18l m17s.18n m17u.18l m17u.18n m17v.18l m17v.18n m183.18l m183.18n
m184.18l m184.18n m18j.18k m18j.18l m18k.18l m18m.18l m18m.18n m18q.18l m18q.18n m18g.18u.18x
m18g.18v.18x m18g.18w.18x m187.18p m187.18q m189.18p m189.18q m18a.18p m18a.18q m183.18p
m183.18q m184.18p m184.18q m17x.18p m17x.18q m17w.18p m17w.18q m17y.18p m17y.18q m185.18p
m185.18q m186.18p m186.18q m184.17w m184.17x m184.17y m184.18l m184.181 m183.181 m185.181
m186.181 m187.18p m187.18q m189.18p m189.18q m18a.18p m18a.18q m183.18p m183.18q m184.18p
m184.18q m17x.18p m17x.18q m17w.18p m17w.18q m17y.18p m17y.18q m185.18p m185.18q m186.18p
m186.18q m184.17w m184.17x m184.17y m184.18l m184.181 m183.181 m185.181 m186.181 m184.17w
m184.17x m184.17y m184.18l m183.18n m184.18n m187.18l m183.17w m183.17x m183.17y m184.17w
m184.17x m184.17y m187.18l m188.18l m17r.18r m17r.18r vi m17u.17w.18l m17u.17x.17w m17u.17x.17w
m17u.17x.18l m17u.17y.18l m17u.18l.17w m17u.18l.17x m17u.18l.17y m17w.18l.17x m17w.18l.17x
m17x.18l.18q m17x.18l.18p m183.17x.17w m183.17w.17x m183.17w.18p m183.18l.17x m183.18l.17x
m183.18l.17w m183.18l.18l m183.18l.18l m185.17x.17x m185.17x.17x m185.18l.18l m184.17x.18l
m184.17x.18l m184.17w.18q m184.18l.17y m184.18l.17y m184.18l.18l m184.18l.18l m186.17x.18p
m186.17y.18l m186.17y.18l m187.18l.17x m187.18l.17x m187.18l.18l m187.18l.18q m189.17w.18l
m189.18l.18l m189.18l.18l m189.18l.18p m18a.18l.18l m18a.18l.18q m18a.18l.18p m18h.17y.18l
m18h.17y.18l m18i.18l.17x m18i.18l.18l m18k.17x.18l m18k.17x.18q m18k.17x.18p m18k.17w.17w
m18k.17w.17w m18k.17y.18l m18k.17y.18l m18k.18l.17x m18k.18l.17x m18l.17x.17w m18l.17x.18l
m18l.17x.18q m18l.17w.17x m18l.17w.18l m18l.17y.17w m18l.17y.18l v2 m18l.17w.17y m18n.18l.17w
m18n.18l.18l m18m.17x.18l m18m.17x.18p m18m.17w.18l m18m.17w.18l m18m.17w.18p m18m.18l.18q
m18m.18l.18p m18q.18l.18l m18q.18l.18l m17s.17y.18q m17u.17w.18q m17u.17w.18p m17u.17y.18q
m17u.17y.18p m17u.18l.18q m17u.18l.18p m17w.18l.18q m17w.17x.18p m17w.18l.18p m183.17y.18p
m185.17x.18q m184.17x.18q m186.17x.18q m18k.17w.18q m18k.18l.18q m18q.17x.18q m18q.17w.18q
m18q.18l.18q m18l.18l.18q m18i.18l.18q m18m.17x.18q m18i.18l.17x m18k.17x.18l m189.18l.18q
m18j.18l.18q m18m.17w.17x m18l.17y.18q m18k.17w.18l m18j.18l.18l m18k.17w.18l m18m.17w.17x
m17w.17x.18q m17x.17w.18q m18l.17w.18q m18h.18l.18q m17s.17x.18q m18j.18l.18l m189.17w.18l
m185.18l.18l m183.17y.18q m18m.17w.18q v8 xw m185.18k.1ci m18i.18k.1ci m17r.18k.18k.18n
m17r.18j.17s.181 m18l.17x.18l.17z m185.18k.189.18l m181.183.18o.18k m189.18k.18q.18n
m18o.183.18k.18l m185.18k.18p m185.18k.18p.w.17r.18k.18k.18n.w.189.18k.18q.18n.w.18o.183.18k.18l
m17w.18k.w.17w.18k.17r.18k.18n m181.1cc.17r.18k v3 ig m18 m9hd x1 s2.1m mx m1r s2.9hy x7 vg x1
m6c4 m6c3 m2n m2n s2.14 m3f m3h s2.9hw s2.9hs s2.9hm s2.9hk s4.9ho v2 m2j m2l mw.lh mw.lh mw.lh
mw.lh m2n m2n m2n m18 m9hd x2 m1n m1m m1r mx m6c4 s2.14 m3f m3h s2.9hw mz m12 s2.16 m19 m1o m1q
m1p x1 m2k s2.10 m1s x4 mw.18r m18g.18r mw.18s v1 mw.18t x1 mw.18u m18g.18u mw.18v m18g.18v
mw.18w m18g.18w mw.18x m18g.18x mw.18y m18g.18y s2.17l s2.17m s2.17n s2.17o s2.17p m17q m17q
s2.17q s2.17r m17s m17s s2.17s s2.17t m17u m17u s2.17u m17v m17v s2.17v m17w m17w s2.17w m17x
m17x s2.17x m17y m17y s2.17y s2.17z s2.180 s2.181 s2.182 m183 m183 s2.183 m184 m184 s2.184 m185
m185 s2.185 m186 m186 s2.186 m187 m187 s2.187 m188 m188 s2.188 m189 m189 s2.189 m18a m18a m18a
m18h m18h m18h s2.18h m18i m18i s2.18i m18j m18j s2.18j m18k m18k s2.18k m18l m18l s2.18l m18m
m18m s2.18m m18n m18n s2.18n s2.18o s2.18p m18q m18q m18q m18k.17m m18k.17m m18k.17n m18k.17n
m18k.17p m18k.17p m18k.17r m18k.17r x2 i1 x1 sw.x sq.2p s10.2j s2.879 m1a s2.9ho m9hd m9ob m9o2
m9lt m9lv m9lx m9lz m9m1 m9nn m9np m9nr m9mr m9oc m9lu m9lw m9ly m9m0 s2.9m2 m9m5 m9m7 m9m9 m9mb
m9md m9mf m9mh m9mj m9ml m9mn m9mp m9ms m9mu m9mw s6.9my m9n6 m9n9 m9nc m9nf s5.9ni m9no m9nq
s6.9ns m9nz m9o3 s2.9ll i1 s2.3cw m3hm m3cy s2.3ho s3.3cz s6.3hs m3dm s3.3d2 m3dt sa.3d5 x3
s6.3fl x2 s6.3fr x2 s6.3fx x2 s3.3g3 x3 s2.4i m4s mw.lg m4m m4l m6g9 x1 m7b6 s4.6mo m7fk m7gr xh
vc x1 vq x1 vj x1 v2 x1 vf x2 ve xy v3f x5 v3 x4 v19 x3 v2g x1 vd x3 v1 x1b v1a x3m vt x3 v1d xf
vs x4 v10 x9 vu x5 v17 x5 vu x1 v11 x4 ve x16 s14.1fe0 v3a x2 va x6 s10.1fiw x4 v10 x4 v14 x8
v1g xb v1 sb.1fo7 x1 sf.1foj x1 s7.1foz x1 s2.1fp7 x1 vb x1 vf x1 v7 x1 v2 x3 v1g xc v8n x9 vm
xa v8 xo v1 s2.k0 m6e mih mgj x1 mir mxuu mit mis s2.gm m5u9 mgo mgu mix mh0 mgy mgw mij m87 mik
mh3 mhw s2.iy mh8 m2mmc mx3i mha m2mmd mi6 m2mme m6w s2.hi m35 mhm m2mmg s2.hp mhs miw miu mxuv
miv mi0 m8s1 x1 mi7 s2.ip mig s3.cg m2mmi m2mn2 x1x v6 x2 v1 x1 v18 x1 v2 x3 v1 x2 vn x1 v20 x8
v9 x1c vj x1 v2 x5 vx x3 vr x5 vr x12 v1k x4 vk x2 v1e x1 v2 x5 v8 x1 v3 x1 vt x2 v3 x4 va x7 v9
x7 v1s xw v13 x4 vc x9 v1i x3 vt x2 vr x5 vq x7 v4 xc v7 x28 v21 x1j s1f.1h34 xd v1f x7 v1a x8
va x6 vg sm.1h80 x3 vt x8 v2 x5s vv x1 v16 x1 v3 x2 v2 xg v6 x8 v9 xx v1a x8 v16 xm vq x12 vs xk
vn x9 v26 x4 v10 x9 v1q x1 v5 xd vp x7 va x6 v1h x1 vi x8 v13 x9 v2o x1 vk xb vi x1 v1b x1q v7
x1 v1 x1 v4 x1 vf x1 vb x6 v1n x5 va x6 v4 x1 v8 x2 v2 x2 vm x1 v7 x1 v2 x1 v5 x1 va x2 v2 x2 v3
x2 v1 x6 v1 x5 v7 x2 v7 x3 v5 xb va x1 v1 x2 v1 x1 v12 x1 va x1 v1 x2 v1 x1 v4 x1 va x1 v2 x8 v2
xt v2k x1 v5 xu v20 x8 va x4m v1i x2 v12 xy v1x xb va x6 vd xj v1m x6 va x6 vk xs vr x2 vf x4 vn
x55 v1o x2s sw.1jgg v1f xc v8 x2 v1 x2 v8 x1 v2 x1 vu x1 v2 x2 vc x9 va x1y v8 x2 v1a x2 vb xr
v20 x8 v2b xd v21 x7 va x2e v8 x2g vy xe va x6 v9 x1 v19 x1 ve xa vt x3 vw x2 vm x1 ve x21 v7 x1
v2 x1 v18 x3 v1 x1 v2 x1 v9 x8 va x6 v6 x1 v2 x1 v11 x1 v2 x1 v6 x7 va x6 v18 x4 va x6u vp x7 vh
x1 v15 x3 vt x2d v1 xf v1e xd vpn x2u v33 x1 v5 xb v5g x218 v2r xd vts xg vm xa v32z x5 vg7 x5a1
v1m x1c6 vft x7 vv x1 va x4 v29 x1 va x6 vu x2 v6 xa v1y xa va x1 v7 x1 vl x5 vj xc0 v1m x5i
sw.20dc v1n x5 sp.20fv x2 vp x18 v23 x4 v1l x7 vh x1s v5 xb v7 x9 v5p2 x15 vw x2p v37 x6pp v4 x1
v7 x1 v2 x1 v83 xf v1 xt v3 x2 v1 xe v4 x8 vb0 x1s4 v2z x5 vd x3 v9 x7 va x2 v4 i4 x318 v5y
sq.2p sa.1c v3 x3 vc4 x6 vn xf vh xf v1a x2 vn x9 v38 x1o v6u xa v13 x2 v1h m2jx3.2jxh
m2jx4.2jxh m2jx4.2jxh.2jxq m2jx4.2jxh.2jxr m2jx4.2jxh.2jxs m2jx4.2jxh.2jxt m2jx4.2jxh.2jxu ve i8
v1s m2jzt.2jxh m2jzu.2jxh m2jzt.2jxh.2jxq m2jzu.2jxh.2jxq m2jzt.2jxh.2jxr m2jzu.2jxh.2jxr v16 xl
v1y x3e vk xc vk xc v2f x9 vp x3r sq.2p sq.2p sq.2p s7.2p x1 si.2x sq.2p sq.2p m2p x1 s2.2r x2
m2v x2 s2.2y x2 s4.32 x1 s8.37 s4.2p x1 m2u x1 s7.2w x1 sb.34 sq.2p sq.2p s2.2p x1 s4.2s x2
s8.2y x1 s7.37 x1 sq.2p s2.2p x1 s4.2s x1 s5.2x x1 m33 x3 s7.37 x1 sq.2p sq.2p sq.2p sq.2p sq.2p
sq.2p sq.2p sq.2p sq.2p sq.2p sq.2p sq.2p sq.2p m8h mfr x2 sh.q9 mqg s7.qr m6pz sh.q9 mqr s7.qr
m6pu mqd mqg mqi mqu mqp mqo sh.q9 mqg s7.qr m6pz sh.q9 mqr s7.qr m6pu mqd mqg mqi mqu mqp mqo
sh.q9 mqg s7.qr m6pz sh.q9 mqr s7.qr m6pu mqd mqg mqi mqu mqp mqo sh.q9 mqg s7.qr m6pz sh.q9 mqr
s7.qr m6pu mqd mqg mqi mqu mqp mqo sh.q9 mqg s7.qr m6pz sh.q9 mqr s7.qr m6pu mqd mqg mqi mqu mqp
mqo mrh mrh x2 sa.1c sa.1c sa.1c sa.1c sa.1c vi4 xf v5 x1 vf xuo vv x6 v6 x5x v7 x1 vh x2 v7 x1
v2 x1 v5 x5 s9.ts s3.u2 sb.u6 muj s2.ul mww9 myh muu muw myx mxb my7 s9.ts s2.u2 s2.u6 mu9 s6.ub
s2.ui mwh muu mut mv3 mx7 mwup mxd xx v1 x34 v19 x3 ve x2 va x4 v2 x8w vv xh v1m x5 v1 xcw v16
x5y v17 x4 v1 x5c vv x1 vm x8 v2 x68 v7 x1 v4 x1 v2 x1 vf x1 v5h x2 vg x15 sy.2oma v16 x4 va x4
v2 xlt v1w x24 v1p x5e s2.17r m17w m17z x1 m18o m182 m17x m187 m18q s4.18j m183 m189 m18h m185
m18i m181 m184 s2.17u m17y m180 m186 m188 m18a m19q m1bu m1b5 m19r x1 m17s m17w x1 m18n x2 m17x
x1 m18q s4.18j m183 m189 m18h m185 m18i x1 m184 s2.17u m17y x1 m186 x1 m18a x6 m17w x4 m17x x1
m18q x1 m18k x1 m18m m183 m189 x1 m185 m18i x1 m184 x2 m17y x1 m186 x1 m18a x1 m1bu x1 m19r x1
m17s m17w x1 m18n x2 m17x m187 m18q m18j x1 s2.18l m183 m189 m18h m185 m18i x1 m184 s2.17u m17y
x1 m186 m188 m18a m19q x1 m1b5 x1 s2.17r m17w m17z s2.18n m182 m17x m187 m18q x1 s3.18k m183
m189 m18h m185 m18i m181 m184 s2.17u m17y m180 m186 m188 m18a x5 m17s m17w m17z x1 m18o m182
m17x m187 m18q x1 s3.18k m183 m189 m18h m185 m18i m181 m184 s2.17u m17y m180 m186 m188 m18a x1g
v2 x7i v18 x4 v2s xc vf x2 vf x1 vf x1 v11 xb m1c.18 m1d.18 m1e.18 m1f.18 m1g.18 m1h.18 m1i.18
m1j.18 m1k.18 m1l.18 v5 m14.2p.15 m14.2q.15 m14.2r.15 m14.2s.15 m14.2t.15 m14.2u.15 m14.2v.15
m14.2w.15 m14.2x.15 m14.2y.15 m14.2z.15 m14.30.15 m14.31.15 m14.32.15 m14.33.15 m14.34.15
m14.35.15 m14.36.15 m14.37.15 m14.38.15 m14.39.15 m14.3a.15 m14.3b.15 m14.3c.15 m14.3d.15
m14.3e.15 m9hw.37.9hx m2r m36 m2r.2s m3b.3e v1 sq.2p m2w.3a m31.3a m37.2s m37.37 m34.34.3a
m3b.2r vq m31.2r m31.2s m31.36 vz m2s.2y vt x1k vq m9kr.9jf m9mb.9mb m9md xd mjez mi1j mgjw m9mv
mfik mhlm mr8j mhm1 mfj8 mk68 mmch mk2h mg99 mivg mg3x mk34 mg7x moqq mn4v mrs9 mhkg mgmx mlxw
mjh1 mjmd mfeo mfex msi2 mijq mffx mgkz mjk7 mrxs mjf7 mo01 mo6y mglk mlts mkcp mkco mn5f mgaa
mgxi msp9 x4 m9hw.kdo.9hx m9hw.fex.9hx m9hw.fik.9hx m9hw.i2x.9hx m9hw.m9l.9hx m9hw.jf7.9hx
m9hw.nh3.9hx m9hw.gd9.9hx m9hw.k0n.9hx x7 mivr mgkv xe v6 x4a vrd x3 vh x3 vd x3 v62 x6 vc x4 v1
xf vc x4 v1k x8 va x6 v14 x8 vu x2 vc x4 v2 xe v9 x13 v9k x8 ve x2 vd x3 vb x3 v1l x1 v1 x4 vg
x2 vc x4 va x7 v43 x1 v2k sa.1c v1 xsl vwyo xw v3dq x2 v4ge x2 v5rl xf vha x1wi mfgd mfg8 mfgh
m2tcy mfog mfqm mfqz mfsy mfwa mfx5 mfzb mfyn mae6 m2ud6 mg25 mg2c mg2s mg3b m2u58 maex mg2v
mg3x m2u6j mg47 mg4k mfkc mg4s mg51 m3ly7 mg6t mg77 mafz mg8r mg92 mgaa mgaf mahh mgcn mgcp mgdg
mge2 s2.ged mgev mgg9 mggh mggq mghf mghp mghr mghr mghr m2v58 mm7k mgju mgkf m2vdv mgkr mgkx
mgli mgpq mgmw mgnc mgo8 mgpu mgs6 mgsw mgur mgv7 mgw4 mgw4 mgwp mgx7 mgxf mgxu mh7a mgzq mh7b
mh1t mh2s mg7b mhke mhce mhdg mhe5 mhaj mhf6 mhf5 mhik m2x9g mhki mhkn mhl2 mhlm mhlu mhnm m2xm0
m2xnu mhrg mhsr mht3 mhqw mhuu maum mav0 mhzc mi0u mi0u m2y88 mi4j mi54 mi5j mi5v m2yhk mi67
mi6e mitv mi76 mayp mi8w mi9a mibk mia5 m2z1g mif7 m2z1i mige migb migs s2.ijl mb3j mikd milk
mim5 mind mb4y m2zr7 mb5o mipc mipf mipi miq2 m3pg2 miri m3035 m3035 mpoh misi misi mb7r m335k
m3cgq miua miuj mb8j mivu mix9 mixj miyh mj29 mbay mba4 mj2s m30t0 mj47 mj7s mj7w mj7y mj7w mj96
mj9q mjaq mjac mjan mjby mjci mjcm mjdc mjdn mjfh mjht mjis mjm8 m31n0 mjlp mjjw mjmw mjnn mjqc
m31td mjs2 mjph mjop mbhq mju1 mjum mjvh mjuf mbjg mk0f mk18 m32mi mk4j mkc8 mk7d mbo9 mk9d mbns
mbms mg42 mg45 mkcg mk9o mpf1 mdeh mkd3 mkd7 mkdd mkf2 mker m33cz mbpl mkje mkg5 mklu mkn9 m33hp
mkni mkkf mkr8 mbrx mksi mkv7 mkx6 ml2g m33xf ml3v mbvc ml5t m34br ml78 mbwu ml82 ml9b s2.la2
m34p9 m2yvf m34sa mle6 m354s mlhb mlhp mlev mljq mlku mlmf mlkx mlm1 mlmg mlmt m357i mlkk mlrj
mlta mc37 mlvv mlvr m35jl mlq1 mm0e m35ni m35ou mm2u mm61 mm5a mm57 mc5y mm6i mm7x mm7r mm99
m2u5h mmdh m368z mmfw m36i3 mmjs mmk5 mmkw m36yw mmm8 mmmt m3779 m37dg mmt6 mmtn mcdo mmud mce0
mce0 mmyv mmzg mn01 mn0l mn2i mcgr mn50 m386u mn5q m389e mn74 m2zrz mnbk m38v5 m38vs m38zo mcn0
mcnc mnhw m394j m394i m395l m396b s2.nj2 mnj3 mnka mcop mnm3 mcp2 mcra m39r1 mnri mnt8 mnv0 mctf
m3a5i mnyu m3a8q m3a9x mo0f mo2z mcvj mo5c mo5m mo5r m3at8 m3b1j m3b1j moa6 md1e m3b8r mog6 mog9
md2f m3beo monm md5s moo8 moo3 moow m3c06 morn md8h mouf mow2 moxx md9w m3ciw m3cjr mdax m3cnt
mp6i m3cqm mp79 mpa2 mpad m3d22 m3d43 mpcw m3d7s mpdc m33a7 mded mpf6 mphf mdfv mpj2 mhx1 m3dlz
m3dmd m33bn m33bw mpoh mpok msda mdij mpsh mpsb mpst mgc3 mptd mptf mptp mpuu m3ebg mput mpwd
mpyb mq0d mpwj mq0t mq1z mq53 mpxv mq16 mq18 mq1o m3eie m3eqz m3emt mdnv mq9d mq9f mqae m3g0a
mqck m3f3g mdp9 mdpd m3f75 m3ff6 mdpn mqj4 mqjg mqjr mqjt mqll mqko mqoe mqn6 mqrd mqp4 mqqz
mqrq mdsn mqu9 mqv5 mdtl mqxs mqxv m3giv mr13 mr1a mdv9 mr22 maez m3gz2 m3h46 mdz2 mdzb mrds
mrfx mrka mrpx m3hrc mrsb mrsx mrvf mrxz m3i9b m2upw ms0b mrzw ms1c m2uvy ms7o msag m3jki m3jl9
msk4 msmp msnl m3ju6 msnv msvs s2.t07 msxo mt89 mt91 m3ksa mtjf mej9 mtkn m3l2v meli mts3 miia
mtur m3ltx m3lzu mepa mepi mu00 m3mdm mer6 m3mhi mu17 mu17 mu21 m3mpi mu76 meur mu95 mucn mude
muf2 mez2 m3nsg mumq muv4 mv0d mf66 mf71 mv3b m3owe mf7c m3oxx m3p5a m3p8x mvcr mf9y mveh mvem
mvet mvf3 mvfa mvgb m3pxc x15u v3t7 x5 v6ju xf62u i6o x47bk"

end Latchkey.Idna
