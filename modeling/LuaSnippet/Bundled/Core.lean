import LuaSnippet.Text.Lines

/-!
# Declarations of every dialect

What all dialects offer: the global functions and the common namespaces.
-/

namespace LuaSnippet.Bundled

/-- The types that mark what a function gives. -/
def language : String := Text.unlines [
  "/**",
  " * Marks a function return type as returning multiple values. Calls are",
  " * lowered to plain Lua calls when destructured and wrapped in a table",
  " * otherwise.",
  " */",
  "declare type LuaMultiReturn<T extends any[]> = T;",
  "",
  "/**",
  " * Marks a function return type as a Lua iterator. \x60for...of\x60 over such a",
  " * call is lowered to a generic \x60for ... in\x60 loop.",
  " */",
  "declare type LuaIterable<TValue> = Iterable<TValue>;",
  "",
  "interface LuaTable<TKey = any, TValue = any> \x7b",
  "    [key: string]: TValue;",
  "\x7d"]

def global : String := Text.unlines [
  "/** A global variable that holds the global environment. */",
  "declare const _G: LuaTable;",
  "",
  "/** A global variable containing the running interpreter version. */",
  "declare const _VERSION: string;",
  "",
  "/**",
  " * Calls error if the value of its argument v is false; otherwise, returns",
  " * all its arguments.",
  " */",
  "declare function assert<V>(v: V, ...args: any[]): Exclude<V, undefined | null | false>;",
  "",
  "declare function collectgarbage(opt?: \"collect\" | \"stop\" | \"restart\" | \"count\" | \"step\"): number;",
  "",
  "declare function dofile(filename?: string): any;",
  "",
  "/** Terminates the last protected function called and returns message as the error object. */",
  "declare function error(message: string, level?: number): never;",
  "",
  "declare function getmetatable<T>(object: T): LuaMetatable<T> | undefined;",
  "",
  "/**",
  " * Returns three values (an iterator function, the table t, and 0) so that",
  " * \x60for i, v in ipairs(t) do body end\x60 iterates over the pairs (1, t[1]),",
  " * (2, t[2]), and so on.",
  " */",
  "declare function ipairs<T>(t: Record<number, T>): LuaIterable<LuaMultiReturn<[number, T]>>;",
  "",
  "declare function load(chunk: string, chunkname?: string, mode?: \"b\" | \"t\" | \"bt\", env?: object): LuaMultiReturn<[() => any] | [undefined, string]>;",
  "",
  "declare function loadfile(filename?: string, mode?: \"b\" | \"t\" | \"bt\", env?: object): LuaMultiReturn<[() => any] | [undefined, string]>;",
  "",
  "/** Allows a program to traverse all fields of a table. */",
  "declare function next(table: object, index?: any): LuaMultiReturn<[any, any] | []>;",
  "",
  "declare function pairs<TKey, TValue>(t: LuaTable<TKey, TValue>): LuaIterable<LuaMultiReturn<[TKey, TValue]>>;",
  "",
  "/** Calls function f with the given arguments in protected mode. */",
  "declare function pcall<This, Args extends any[], R>(f: (this: This, ...args: Args) => R, context: This, ...args: Args): LuaMultiReturn<[true, R] | [false, string]>;",
  "declare function pcall<A extends any[], R>(f: (this: void, ...args: A) => R, ...args: A): LuaMultiReturn<[true, R] | [false, string]>;",
  "",
  "declare function print(...args: any[]): void;",
  "",
  "declare function rawequal<T>(v1: T, v2: T): boolean;",
  "",
  "declare function rawget<T extends object>(table: T, index: any): any;",
  "",
  "declare function rawset<T extends object>(table: T, index: any, value: any): T;",
  "",
  "declare function require(modname: string): any;",
  "",
  "/**",
  " * If index is a number, returns all arguments after argument number index.",
  " * Otherwise, index must be the string \"#\", and select returns the total",
  " * number of extra arguments it received.",
  " */",
  "declare function select<T>(index: number, ...args: T[]): LuaMultiReturn<T[]>;",
  "declare function select<T>(index: \"#\", ...args: T[]): number;",
  "",
  "declare function setmetatable<T extends object>(table: T, metatable?: LuaMetatable<T> | null): T;",
  "",
  "/** Tries to convert its argument to a number. */",
  "declare function tonumber(e: any, base?: number): number | undefined;",
  "",
  "declare function tostring(e: any): string;",
  "",
  "/** Returns the type of its only argument, coded as a string. */",
  "declare function type(v: any): \"nil\" | \"number\" | \"string\" | \"boolean\" | \"table\" | \"function\" | \"thread\" | \"userdata\";",
  "",
  "declare function xpcall<A extends any[], R>(f: (...args: A) => R, msgh: (err: any) => any, ...args: A): LuaMultiReturn<[true, R] | [false, any]>;",
  "",
  "interface LuaMetatable<T, TIndex = object | ((this: T, key: any) => any)> \x7b",
  "    __add?(this: T, operand: any): any;",
  "    __sub?(this: T, operand: any): any;",
  "    __mul?(this: T, operand: any): any;",
  "    __div?(this: T, operand: any): any;",
  "    __mod?(this: T, operand: any): any;",
  "    __pow?(this: T, operand: any): any;",
  "    __unm?(this: T, operand: any): any;",
  "    __concat?(this: T, operand: any): any;",
  "    __len?(this: T): any;",
  "    __eq?(this: T, operand: any): boolean;",
  "    __lt?(this: T, operand: any): boolean;",
  "    __le?(this: T, operand: any): boolean;",
  "    __index?: TIndex;",
  "    __newindex?: object | ((this: T, key: any, value: any) => void);",
  "    __call?(this: T, ...args: any[]): any;",
  "    __tostring?(this: T): string;",
  "    __mode?: \"k\" | \"v\" | \"kv\";",
  "    __metatable?: any;",
  "    __gc?(this: T): void;",
  "\x7d"]

/-- The namespace `math`. -/
def math : String := Text.unlines [
  "/** This library provides basic mathematical functions. */",
  "declare namespace math \x7b",
  "    const huge: number;",
  "    const pi: number;",
  "    function abs(x: number): number;",
  "    function acos(x: number): number;",
  "    function asin(x: number): number;",
  "    function atan(y: number, x?: number): number;",
  "    function ceil(x: number): number;",
  "    function cos(x: number): number;",
  "    function deg(x: number): number;",
  "    function exp(x: number): number;",
  "    function floor(x: number): number;",
  "    function fmod(x: number, y: number): number;",
  "    function log(x: number, base?: number): number;",
  "    function max(x: number, ...numbers: number[]): number;",
  "    function min(x: number, ...numbers: number[]): number;",
  "    function modf(x: number): LuaMultiReturn<[number, number]>;",
  "    function rad(x: number): number;",
  "    function random(m?: number, n?: number): number;",
  "    function randomseed(x: number): number;",
  "    function sin(x: number): number;",
  "    function sqrt(x: number): number;",
  "    function tan(x: number): number;",
  "\x7d"]

/-- The namespace `string`. -/
def string : String := Text.unlines [
  "declare namespace string \x7b",
  "    function byte(s: string, i?: number): number;",
  "    function byte(s: string, i?: number, j?: number): LuaMultiReturn<number[]>;",
  "    function char(...args: number[]): string;",
  "    function dump(func: Function): string;",
  "    function find(s: string, pattern: string, init?: number, plain?: boolean): LuaMultiReturn<[number, number, ...string[]] | []>;",
  "    function format(formatstring: string, ...args: any[]): string;",
  "    function gmatch(s: string, pattern: string): LuaIterable<LuaMultiReturn<string[]>>;",
  "    function gsub(s: string, pattern: string, repl: string | Record<string, string> | ((...matches: string[]) => string), n?: number): LuaMultiReturn<[string, number]>;",
  "    function len(s: string): number;",
  "    function lower(s: string): string;",
  "    function match(s: string, pattern: string, init?: number): LuaMultiReturn<string[]>;",
  "    function rep(s: string, n: number): string;",
  "    function reverse(s: string): string;",
  "    function sub(s: string, i: number, j?: number): string;",
  "    function upper(s: string): string;",
  "\x7d"]

/-- The namespace `table`. -/
def table : String := Text.unlines [
  "declare namespace table \x7b",
  "    function concat(list: (string | number)[], sep?: string, i?: number, j?: number): string;",
  "    function insert<T>(list: T[], value: T): void;",
  "    function insert<T>(list: T[], pos: number, value: T): void;",
  "    function remove<T>(list: T[], pos?: number): T | undefined;",
  "    function sort<T>(list: T[], comp?: (a: T, b: T) => boolean): void;",
  "\x7d"]

/-- The namespace `os`. -/
def os : String := Text.unlines [
  "declare namespace os \x7b",
  "    function clock(): number;",
  "    function date(format?: string, time?: number): string;",
  "    function difftime(t2: number, t1: number): number;",
  "    function exit(code?: boolean | number): never;",
  "    function getenv(varname: string): string | undefined;",
  "    function remove(filename: string): LuaMultiReturn<[true] | [undefined, string]>;",
  "    function rename(oldname: string, newname: string): LuaMultiReturn<[true] | [undefined, string]>;",
  "    function time(): number;",
  "    function tmpname(): string;",
  "\x7d"]

def core : String := Text.unlines [
  "/// <reference path=\"./language-extensions.d.ts\" />",
  "/// <reference path=\"./global.d.ts\" />",
  "/// <reference path=\"./math.d.ts\" />",
  "/// <reference path=\"./string.d.ts\" />",
  "/// <reference path=\"./table.d.ts\" />",
  "/// <reference path=\"./os.d.ts\" />"]

end LuaSnippet.Bundled
